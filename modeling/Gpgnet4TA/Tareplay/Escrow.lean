import Gpgnet4TA.Tareplay.ReplayServer

/-!
# The escrow on live replays

The size log of a game is the end of the history of its file's sizes, so its front, once the
log is longer than the delay, is a size the file had at least that long ago. A stream that a
subscriber has on the file never stands beyond that size.
-/

namespace Gpgnet4TA.Tareplay
open Gpgnet4TA.Lib Gpgnet4TA.Gpgnet

/-! ### What a subscription and a tick do to one user -/

theorem onSubscribe_cases (files : Files) (games : Std.ExtTreeMap ℕ GameInfo) (user : UserContext)
    (msg : TaReplayServerSubscribe) :
    let user' := (onSubscribe files games user msg).1
    user' = user ∨ user' = { user with demoFile := none } ∨
    ∃ (game : GameInfo) (f : DemoFile), games[msg.gameId]? = some game ∧ files msg.gameId = some f ∧
      0 ≤ game.delaySeconds ∧
      ((f.readable = false ∨ game.demoFileSizeLog = none) ∧
          user' = { user with demoFile := some ⟨msg.gameId, f.readable, 0⟩ } ∨
        f.readable = true ∧ ∃ log : List ℤ, game.demoFileSizeLog = some log ∧
          user' = { user with
            gameId := msg.gameId
            demoFile := some ⟨msg.gameId, true, if log.length > game.delaySeconds then
              min msg.position (log.headD 0 % 2 ^ 32).toNat else 0⟩ }) := by
  simp only [onSubscribe]
  cases hgame : games[msg.gameId]? with
  | none => exact Or.inl rfl
  | some game =>
    by_cases hdelay : game.delaySeconds < 0
    · simp only [if_pos hdelay]
      exact Or.inl trivial
    · simp only [if_neg hdelay]
      cases hfile : files msg.gameId with
      | none =>
        simp only [findReplayFileForGame, hfile, Option.map_none]
        exact Or.inr (Or.inl trivial)
      | some f =>
        simp only [findReplayFileForGame, hfile, Option.map_some]
        refine Or.inr (Or.inr ⟨game, f, rfl, rfl, by omega, ?_⟩)
        cases hgood : f.readable with
        | false => exact Or.inl ⟨Or.inl rfl, by simp⟩
        | true =>
          cases hlog : game.demoFileSizeLog with
          | none => exact Or.inl ⟨Or.inr rfl, by simp⟩
          | some log => exact Or.inr ⟨rfl, log, rfl, by simp⟩

theorem int32_le {x : ℤ} (h : 0 ≤ x) : int32 x ≤ x := by
  unfold int32
  rw [Int.bmod_def]
  split <;> omega

theorem int32_int32_sub (x y : ℤ) : int32 (int32 x - y) = int32 (x - y) := by
  unfold int32
  rw [Int.bmod_sub_bmod]

theorem unsigned_int32_le (n : ℕ) : (int32 n % 2 ^ 32).toNat ≤ n := by
  have hmod : int32 n % ((2 ^ 32 : ℕ) : ℤ) = n % ((2 ^ 32 : ℕ) : ℤ) := Int.bmod_emod
  have hcast : ((2 ^ 32 : ℕ) : ℤ) = 2 ^ 32 := by norm_num
  rw [hcast] at hmod
  omega

theorem sendChunks_below (files : Files) {size : ℕ} (maxBytes : ℤ) (fuel : ℕ) (h : Handle)
    (bytesToWrite : ℕ) (hgood : h.good = true) (hpos : h.pos ≤ size) :
    let sent := sendChunks files (int32 size) maxBytes fuel h bytesToWrite
    (∀ c ∈ sent.1, c.offset + c.data.length ≤ size) ∧ sent.2.1.pos ≤ size ∧
      sent.2.1.game = h.game ∧ sent.2.1.good = true := by
  induction fuel generalizing h bytesToWrite with
  | zero => exact ⟨by simp [sendChunks], hpos, rfl, hgood⟩
  | succ fuel ih =>
    simp only [sendChunks]
    split
    · exact ⟨by simp, hpos, rfl, hgood⟩
    · rename_i hgo
      set n := min (int32 (int32 (size : ℤ) - h.tellg)) (CHUNK_SIZE : ℤ) with hn
      set data := h.read files n.toNat with hdata
      have hlen : h.pos + data.length ≤ size := by
        have htell : h.tellg = h.pos := by simp [Handle.tellg, hgood]
        have hle : n ≤ (size : ℤ) - h.pos := by
          rw [hn, htell, int32_int32_sub]
          exact (min_le_left _ _).trans (int32_le (by omega))
        have hread : data.length ≤ n.toNat := by
          rw [hdata, Handle.read, if_pos hgood, List.length_take]
          exact min_le_left _ _
        have hpos' : 0 < n := by
          by_contra hcon
          exact hgo (Or.inr (Or.inl (by omega)))
        omega
      obtain ⟨hall, hrest⟩ := ih { h with pos := h.pos + data.length }
        (bytesToWrite + (sendData .OK data).send.length) hgood hlen
      refine ⟨?_, hrest⟩
      intro c hc
      rcases List.mem_cons.mp hc with rfl | hc
      · exact hlen
      · exact hall c hc

theorem sendChunks_bad (files : Files) (threshold maxBytes : ℤ) (fuel : ℕ) (h : Handle)
    (bytesToWrite : ℕ) (hbad : h.good = false) :
    sendChunks files threshold maxBytes fuel h bytesToWrite = ([], h, bytesToWrite) := by
  cases fuel with
  | zero => rfl
  | succ fuel => simp [sendChunks, Handle.read, hbad]

theorem sendChunks_handle (files : Files) (threshold maxBytes : ℤ) (fuel : ℕ) (h : Handle)
    (bytesToWrite : ℕ) :
    (sendChunks files threshold maxBytes fuel h bytesToWrite).2.1.game = h.game ∧
      (sendChunks files threshold maxBytes fuel h bytesToWrite).2.1.good = h.good := by
  induction fuel generalizing h bytesToWrite with
  | zero => exact ⟨rfl, rfl⟩
  | succ fuel ih =>
    simp only [sendChunks]
    split
    · exact ⟨rfl, rfl⟩
    · exact ih _ _

/-! ### The invariant -/

/-- The events of a run in which `G` keeps the delay `d` from its first announcement on. -/
def ConstantDelay (G d : ℕ) : Event → Prop
  | .setGameInfo gameId delaySeconds state => gameId = G → delaySeconds = d ∧ isEnded state = false
  | _ => True

/-- `G` is announced and its file can be opened, but no tick has logged a size of it yet. -/
def Unlogged (w : World) (G : ℕ) : Prop :=
  ∃ game ∈ w.server.gameInfo[G]?, ∃ f ∈ w.files G,
    f.readable = true ∧ game.demoFileSizeLog.isNone = true

def subscribesTo (G : ℕ) (c : Command) : Prop :=
  c.name = TaReplayServerSubscribe.ID ∧ ∃ msg ∈ TaReplayServerSubscribe.set c.args, msg.gameId = G

/-- Nobody subscribes to `G` while it is unlogged. -/
def SubscribesLogged (G : ℕ) (w : World) : Event → Prop
  | .readyRead socket chunk => ∀ user ∈ w.server.users[socket]?,
      ∀ c ∈ user.arrived chunk, subscribesTo G c → ¬ Unlogged w G
  | _ => True

instance (G d : ℕ) (e : Event) : Decidable (ConstantDelay G d e) := by
  unfold ConstantDelay
  split <;> infer_instance

instance (G : ℕ) (w : World) (e : Event) : Decidable (SubscribesLogged G w e) := by
  unfold SubscribesLogged subscribesTo Unlogged
  split <;> infer_instance

/-- The size that the file of `G` had `d` ticks before the last one. -/
def World.horizon (w : World) (d G : ℕ) : ℕ :=
  if d < w.sizes.length then w.sizeAt (w.sizes.length - 1 - d) G else 0

/-- The game's entry: what it monitors is the file of `G`. -/
structure GameOk (G d : ℕ) (w : World) (game : GameInfo) : Prop where
  gameId : game.gameId = G
  delay : game.delaySeconds = d
  handle : ∀ h, game.demoFile = some h → h.game = G ∧
    ∃ f, w.files G = some f ∧ h.good = f.readable
  monitored : ∀ log, game.demoFileSizeLog = some log → ∃ h, game.demoFile = some h
  short : ∀ log, game.demoFileSizeLog = some log → log.length ≤ d + 1
  log : ∀ log h, game.demoFileSizeLog = some log → game.demoFile = some h → h.good = true →
    log <:+ w.sizes.map fun size => int32 (size G : ℤ)

/-- A user's open stream on the file of `G` is behind the horizon, and `serviceUser` looks at
the log of `G` for it. -/
structure UserOk (G d : ℕ) (w : World) (user : UserContext) : Prop where
  readable : ∀ h, user.demoFile = some h → h.good = true →
    ∃ f, w.files h.game = some f ∧ f.readable = true
  escrowed : ∀ h, user.demoFile = some h → h.good = true → h.game = G →
    user.gameId = G ∧ (∃ (game : GameInfo) (log : List ℤ), w.server.gameInfo[G]? = some game ∧
      game.demoFileSizeLog = some log) ∧ h.pos ≤ w.horizon d G

structure EscrowOk (G d : ℕ) (w : World) : Prop where
  mono : ∀ s t, s ≤ t → t < w.sizes.length → w.sizeAt s G ≤ w.sizeAt t G
  grown : ∀ t, w.sizeAt t G ≤ (w.files.content G).length
  game : ∀ game, w.server.gameInfo[G]? = some game → GameOk G d w game
  users : ∀ (socket : ℕ) (user : UserContext), w.server.users[socket]? = some user → UserOk G d w user
  revealed : ∀ r ∈ w.revealed, r.game = G → d ≤ r.tick ∧ r.tick < w.sizes.length ∧
    r.chunk.offset + r.chunk.data.length ≤ w.sizeAt (r.tick - d) G

/-- Files stay what they are, a log stays, and the horizon does not recede. -/
structure Later (G d : ℕ) (w w' : World) : Prop where
  files : ∀ g f, w.files g = some f → ∃ f', w'.files g = some f' ∧ f'.readable = f.readable
  logged : ∀ (game : GameInfo) (log : List ℤ), w.server.gameInfo[G]? = some game →
    game.demoFileSizeLog = some log → ∃ (game' : GameInfo) (log' : List ℤ),
      w'.server.gameInfo[G]? = some game' ∧ game'.demoFileSizeLog = some log'
  horizon : w.horizon d G ≤ w'.horizon d G

section steps

variable {G d : ℕ} {w w' : World}

theorem UserOk.later {user : UserContext} (h : UserOk G d w user) (hl : Later G d w w') :
    UserOk G d w' user where
  readable := by
    intro hd hdemo hgood
    obtain ⟨f, hf, hr⟩ := h.readable hd hdemo hgood
    obtain ⟨f', hf', hr'⟩ := hl.files _ f hf
    exact ⟨f', hf', hr'.trans hr⟩
  escrowed := by
    intro hd hdemo hgood hgame
    obtain ⟨hid, ⟨game, log, hg, hlog⟩, hpos⟩ := h.escrowed hd hdemo hgood hgame
    exact ⟨hid, hl.logged game log hg hlog, hpos.trans hl.horizon⟩

theorem userOk_of_no_file {user : UserContext} (h : user.demoFile = none) : UserOk G d w user where
  readable := by
    intro hd hdemo
    rw [h] at hdemo
    cases hdemo
  escrowed := by
    intro hd hdemo
    rw [h] at hdemo
    cases hdemo

theorem UserOk.same {user user' : UserContext} (h : UserOk G d w user)
    (hfile : user'.demoFile = user.demoFile) (hid : user'.gameId = user.gameId) :
    UserOk G d w user' where
  readable := by
    rw [hfile]
    exact h.readable
  escrowed := by
    rw [hfile, hid]
    exact h.escrowed

theorem GameOk.later {game : GameInfo} (h : GameOk G d w game) (hl : Later G d w w')
    (hsizes : w'.sizes = w.sizes) : GameOk G d w' game where
  gameId := h.gameId
  delay := h.delay
  handle := by
    intro hd hdemo
    obtain ⟨hgame, f, hf, hr⟩ := h.handle hd hdemo
    obtain ⟨f', hf', hr'⟩ := hl.files _ f hf
    exact ⟨hgame, f', hf', hr.trans hr'.symm⟩
  monitored := h.monitored
  short := h.short
  log := by
    rw [hsizes]
    exact h.log

theorem EscrowOk.setFiles (h : EscrowOk G d w) {files' : Files}
    (hfiles : ∀ g f, w.files g = some f → ∃ f', files' g = some f' ∧ f'.readable = f.readable)
    (hgrow : (w.files.content G).length ≤ (files'.content G).length) :
    EscrowOk G d { w with files := files' } := by
  have hl : Later G d w { w with files := files' } :=
    ⟨hfiles, fun game log hg hlog => ⟨game, log, hg, hlog⟩, le_rfl⟩
  exact
    { mono := h.mono
      grown := fun t => (h.grown t).trans hgrow
      game := fun game hg => (h.game game hg).later hl rfl
      users := fun socket user hu => (h.users socket user hu).later hl
      revealed := h.revealed }

theorem EscrowOk.create (h : EscrowOk G d w) {game : ℕ} {readable : Bool}
    (hs : w.create game readable = some w') : EscrowOk G d w' := by
  unfold World.create at hs
  split at hs
  · cases hs
  · rename_i hnone
    cases hs
    refine h.setFiles ?_ ?_
    · intro g f hf
      have hne : g ≠ game := by
        intro heq
        obtain rfl := heq
        exact hnone (by rw [hf]; rfl)
      exact ⟨f, by rw [Function.update_of_ne hne]; exact hf, rfl⟩
    · by_cases hG : G = game
      · have hfile : w.files G = none := by
          rw [hG]
          exact Option.not_isSome_iff_eq_none.mp hnone
        simp [Files.content, hfile]
      · simp [Files.content, Function.update_of_ne hG]

theorem EscrowOk.append (h : EscrowOk G d w) {game : ℕ} {data : Bytes}
    (hs : w.append game data = some w') : EscrowOk G d w' := by
  obtain ⟨f, hf, rfl⟩ := Option.map_eq_some_iff.mp hs
  refine h.setFiles ?_ ?_
  · intro g f' hf'
    by_cases hg : g = game
    · subst hg
      refine ⟨{ f with content := f.content ++ data }, by simp, ?_⟩
      rw [hf] at hf'
      cases hf'
      rfl
    · exact ⟨f', by rw [Function.update_of_ne hg]; exact hf', rfl⟩
  · by_cases hG : G = game
    · subst hG
      simp [Files.content, hf]
    · simp [Files.content, Function.update_of_ne hG]

theorem EscrowOk.setUsers (h : EscrowOk G d w) {users : Std.ExtTreeMap ℕ UserContext}
    {written : ℕ → List Command}
    (husers : ∀ (socket : ℕ) (user : UserContext), users[socket]? = some user → UserOk G d w user) :
    EscrowOk G d { w with server := { w.server with users }, written } := by
  have hl : Later G d w { w with server := { w.server with users }, written } :=
    ⟨fun g f hf => ⟨f, hf, rfl⟩, fun game log hg hlog => ⟨game, log, hg, hlog⟩, le_rfl⟩
  exact
    { mono := h.mono
      grown := h.grown
      game := fun game hg => (h.game game hg).later hl rfl
      users := fun socket user hu => (husers socket user hu).later hl
      revealed := h.revealed }

theorem EscrowOk.setUser (h : EscrowOk G d w) {socket : ℕ} {user : UserContext}
    (huser : UserOk G d w user) : EscrowOk G d (w.setUser socket user) := by
  refine h.setUsers ?_
  intro socket' user' hu
  rw [Std.ExtTreeMap.getElem?_insert] at hu
  split at hu
  · cases hu
    exact huser
  · exact h.users socket' user' hu

theorem EscrowOk.removeUser (h : EscrowOk G d w) {socket : ℕ} : EscrowOk G d (w.removeUser socket) := by
  refine h.setUsers ?_
  intro socket' user' hu
  rw [Std.ExtTreeMap.getElem?_erase] at hu
  split at hu
  · cases hu
  · exact h.users socket' user' hu

theorem EscrowOk.write (h : EscrowOk G d w) {socket : ℕ} {out : List Command} :
    EscrowOk G d (w.write socket out) :=
  h.setUsers h.users

theorem setGameInfo_of_ne (s : Server) {gameId : ℕ} (delaySeconds : ℤ) (state : String)
    (hne : gameId ≠ G) : (s.setGameInfo gameId delaySeconds state).gameInfo[G]? = s.gameInfo[G]? := by
  unfold Server.setGameInfo
  split
  · simp [Std.ExtTreeMap.getElem?_erase, hne]
  · simp [Std.ExtTreeMap.getElem?_insert, hne]

theorem setGameInfo_self (s : Server) (gameId : ℕ) (delaySeconds : ℤ) {state : String}
    (hstate : isEnded state = false) :
    (s.setGameInfo gameId delaySeconds state).gameInfo[gameId]? =
      some { s.gameInfo[gameId]?.getD ⟨0, 0, "", none, none⟩ with gameId, delaySeconds, state } := by
  simp [Server.setGameInfo, hstate]

@[simp]
theorem setGameInfo_users (s : Server) (gameId : ℕ) (delaySeconds : ℤ) (state : String) :
    (s.setGameInfo gameId delaySeconds state).users = s.users := by
  unfold Server.setGameInfo
  split <;> rfl

theorem GameOk.announced {game : GameInfo} (h : GameOk G d w game) (state : String) :
    GameOk G d w { game with gameId := G, delaySeconds := d, state } :=
  ⟨rfl, rfl, h.handle, h.monitored, h.short, h.log⟩

theorem EscrowOk.setGameInfo (h : EscrowOk G d w) {gameId : ℕ} {delaySeconds : ℤ} {state : String}
    (hconst : ConstantDelay G d (.setGameInfo gameId delaySeconds state)) :
    EscrowOk G d { w with server := w.server.setGameInfo gameId delaySeconds state } := by
  set w' : World := { w with server := w.server.setGameInfo gameId delaySeconds state } with hw'
  have hfiles : ∀ g f, w.files g = some f → ∃ f', w'.files g = some f' ∧ f'.readable = f.readable :=
    fun g f hf => ⟨f, hf, rfl⟩
  by_cases hG : gameId = G
  · subst hG
    obtain ⟨rfl, hstate⟩ := hconst rfl
    have hself := setGameInfo_self w.server gameId d hstate
    have hl : Later gameId d w w' := by
      refine ⟨hfiles, ?_, le_rfl⟩
      intro game log hg hlog
      exact ⟨_, log, hself, by rw [hg]; exact hlog⟩
    refine ⟨h.mono, h.grown, ?_, ?_, h.revealed⟩
    · intro game' hg'
      rw [hw', hself] at hg'
      cases hg'
      cases hold : w.server.gameInfo[gameId]? with
      | none =>
        refine ⟨rfl, rfl, ?_, ?_, ?_, ?_⟩
        · intro hd hdemo
          cases hdemo
        · intro log hlog
          cases hlog
        · intro log hlog
          cases hlog
        · intro log hd hlog
          cases hlog
      | some game => exact ((h.game game hold).announced state).later hl rfl
    · intro socket user hu
      rw [hw', setGameInfo_users] at hu
      exact (h.users socket user hu).later hl
  · have hother := setGameInfo_of_ne w.server delaySeconds state hG
    have hl : Later G d w w' :=
      ⟨hfiles, fun game log hg hlog => ⟨game, log, by rw [hw', hother]; exact hg, hlog⟩, le_rfl⟩
    refine ⟨h.mono, h.grown, ?_, ?_, h.revealed⟩
    · intro game hg
      rw [hw', hother] at hg
      exact (h.game game hg).later hl rfl
    · intro socket user hu
      rw [hw', setGameInfo_users] at hu
      exact (h.users socket user hu).later hl

/-! ### Subscriptions -/

/-- The front of a log longer than the delay is the size at the horizon. -/
theorem GameOk.front {game : GameInfo} (h : GameOk G d w game) {log : List ℤ} {hd : Handle}
    (hlog : game.demoFileSizeLog = some log) (hmon : game.demoFile = some hd) (hgood : hd.good = true)
    (hlen : d < log.length) :
    d < w.sizes.length ∧ log.head? = some (int32 (w.horizon d G)) := by
  obtain ⟨before, hbefore⟩ := h.log log hd hlog hmon hgood
  have hshort := h.short log hlog
  have hsize := congrArg List.length hbefore
  rw [List.length_append, List.length_map] at hsize
  have hlt : before.length < w.sizes.length := by omega
  have hd' : d < w.sizes.length := by omega
  refine ⟨hd', ?_⟩
  have hget : (before ++ log)[before.length]? = log.head? := by
    rw [List.getElem?_append_right le_rfl, Nat.sub_self, List.head?_eq_getElem?]
  have hindex : w.sizes.length - 1 - d = before.length := by omega
  rw [← hget, hbefore, List.getElem?_map, List.getElem?_eq_getElem hlt, World.horizon, if_pos hd',
    hindex, World.sizeAt, List.getElem?_eq_getElem hlt]
  rfl

/-- The stream with which the size of a readable file is monitored is open. -/
theorem GameOk.monitor_good {game : GameInfo} (h : GameOk G d w game) {log : List ℤ}
    (hlog : game.demoFileSizeLog = some log) {f : DemoFile} (hf : w.files G = some f)
    (hr : f.readable = true) : ∃ hd, game.demoFile = some hd ∧ hd.good = true := by
  obtain ⟨hd, hmon⟩ := h.monitored log hlog
  obtain ⟨-, f', hf', hgood⟩ := h.handle hd hmon
  rw [hf] at hf'
  cases hf'
  exact ⟨hd, hmon, hgood.trans hr⟩

theorem UserOk.subscribe (h : EscrowOk G d w) {user : UserContext} (hu : UserOk G d w user)
    {msg : TaReplayServerSubscribe} (hmsg : msg.gameId = G → ¬ Unlogged w G) :
    UserOk G d w (onSubscribe w.files w.server.gameInfo user msg).1 := by
  rcases onSubscribe_cases w.files w.server.gameInfo user msg with
    heq | heq | ⟨game, f, hg, hf, -, ⟨hbad, heq⟩ | ⟨hr, log, hlog, heq⟩⟩
  · rw [heq]
    exact hu
  · rw [heq]
    exact userOk_of_no_file rfl
  · rw [heq]
    constructor
    · intro hd hdemo hgood
      cases hdemo
      exact ⟨f, hf, hgood⟩
    · intro hd hdemo hgood hgame
      cases hdemo
      have hG : msg.gameId = G := hgame
      rw [hG] at hg hf
      rcases hbad with hbad | hnone
      · rw [show f.readable = true from hgood] at hbad
        cases hbad
      · exact absurd ⟨game, hg, f, hf, hgood, by rw [hnone]; rfl⟩ (hmsg hG)
  · rw [heq]
    constructor
    · intro hd hdemo hgood
      cases hdemo
      exact ⟨f, hf, hr⟩
    · intro hd hdemo hgood hgame
      cases hdemo
      have hG : msg.gameId = G := hgame
      rw [hG] at hg hf
      refine ⟨hG, ⟨game, log, hg, hlog⟩, ?_⟩
      obtain ⟨hm, hmon, hopen⟩ := (h.game game hg).monitor_good hlog hf hr
      have hdelay := (h.game game hg).delay
      simp only []
      split
      · rename_i hlen
        obtain ⟨-, hhead⟩ := (h.game game hg).front hlog hmon hopen (by omega)
        refine (min_le_right _ _).trans ?_
        rw [List.headD_eq_head?_getD, hhead, Option.getD_some]
        exact unsigned_int32_le _
      · exact Nat.zero_le _

theorem UserOk.onCommands (h : EscrowOk G d w) {cs : List Command}
    (hcs : ∀ c ∈ cs, subscribesTo G c → ¬ Unlogged w G) {user user' : UserContext}
    {out : List Command} (hu : UserOk G d w user)
    (hrun : onCommands w.files w.server.gameInfo cs user = some (user', out)) :
    UserOk G d w user' := by
  induction cs generalizing user out with
  | nil =>
    cases hrun
    exact hu
  | cons c cs ih =>
    obtain ⟨⟨user1, out1⟩, hc, hnext⟩ := Option.bind_eq_some_iff.mp hrun
    obtain ⟨⟨user2, out2⟩, hrest, hend⟩ := Option.bind_eq_some_iff.mp hnext
    cases hend
    refine ih (fun c' hc' => hcs c' (List.mem_cons_of_mem _ hc')) ?_ hrest
    unfold onCommand at hc
    split at hc
    · rename_i hname
      obtain ⟨msg, hmsg, hsub⟩ := Option.map_eq_some_iff.mp hc
      have h1 : user1 = (onSubscribe w.files w.server.gameInfo user msg).1 := by rw [hsub]
      rw [h1]
      exact hu.subscribe h fun hG => hcs c List.mem_cons_self ⟨hname, msg, hmsg, hG⟩
    · cases hc
      exact hu

theorem EscrowOk.readyRead (h : EscrowOk G d w) {socket : ℕ} {chunk : Bytes}
    (hok : SubscribesLogged G w (.readyRead socket chunk))
    (hs : w.readyRead socket chunk = some w') : EscrowOk G d w' := by
  unfold World.readyRead at hs
  cases hu : w.server.users[socket]? with
  | none =>
    rw [hu] at hs
    cases hs
    exact h
  | some user =>
    rw [hu] at hs
    obtain ⟨⟨user', out⟩, hrun, hend⟩ := Option.map_eq_some_iff.mp hs
    obtain ⟨⟨user1, out1⟩, hcs, hend'⟩ := Option.bind_eq_some_iff.mp hrun
    cases hend'
    have hstart : UserOk G d w { user with receiver := user.receiver.onReadyRead chunk } :=
      (h.users socket user hu).same rfl rfl
    have hafter := UserOk.onCommands h (hok user hu) hstart hcs
    have hafter' : UserOk G d w { user1 with bytesToWrite := user1.bytesToWrite + outSize out } :=
      hafter.same rfl rfl
    simp only [] at hend
    split at hend
    · rw [← hend]
      exact (h.setUser hafter').write
    · rw [← hend]
      exact h.removeUser.write

/-! ### Ticks -/

theorem sizeAt_updateLogs {t : ℕ} (ht : t < w.sizes.length) (g : ℕ) :
    w.updateLogs.sizeAt t g = w.sizeAt t g := by
  simp only [World.sizeAt, World.updateLogs, List.getElem?_append_left ht]

theorem sizeAt_updateLogs_last (g : ℕ) :
    w.updateLogs.sizeAt w.sizes.length g = (w.files.content g).length := by
  simp [World.sizeAt, World.updateLogs]

theorem length_updateLogs : w.updateLogs.sizes.length = w.sizes.length + 1 := by
  simp [World.updateLogs]

theorem GameOk.startMonitoring {game : GameInfo} (h : GameOk G d w game) :
    GameOk G d w (startMonitoring w.files game) := by
  unfold Tareplay.startMonitoring
  split
  · cases hf : w.files G with
    | none => simpa [findReplayFileForGame, h.gameId, hf] using h
    | some f =>
      simp only [findReplayFileForGame, h.gameId, hf, Option.map_some]
      refine ⟨rfl, h.delay, ?_, ?_, ?_, ?_⟩
      · intro hd hdemo
        cases hdemo
        exact ⟨rfl, f, hf, rfl⟩
      · exact fun log _ => ⟨_, rfl⟩
      · intro log hlog
        cases hlog
        exact Nat.zero_le _
      · intro log hd hlog
        cases hlog
        intros
        exact List.nil_suffix
  · exact h

theorem logSize_none (files : Files) {game : GameInfo} (hmon : game.demoFile = none) :
    logSize files game = game := by
  simp [logSize, hmon]

theorem logSize_some (files : Files) {game : GameInfo} {hd : Handle}
    (hmon : game.demoFile = some hd) :
    logSize files game = { game with
      demoFileSizeLog := game.demoFileSizeLog.map (· ++ [int32 (hd.size files)]) } := by
  simp [logSize, hmon]

theorem GameOk.update {game : GameInfo} (h : GameOk G d w game) :
    GameOk G d w.updateLogs (updateFileSizeLog w.files game) := by
  have hs := h.startMonitoring
  unfold updateFileSizeLog
  generalize Tareplay.startMonitoring w.files game = game at hs
  cases hmon : game.demoFile with
  | none =>
    rw [logSize_none _ hmon]
    have hnone : (trimLog game).demoFileSizeLog = none := by
      cases hlog : game.demoFileSizeLog with
      | none => simp [trimLog, hlog]
      | some log =>
        obtain ⟨hd, hd'⟩ := hs.monitored log hlog
        rw [hmon] at hd'
        cases hd'
    refine ⟨hs.gameId, hs.delay, hs.handle, ?_, ?_, ?_⟩
    · intro log hlog
      rw [hnone] at hlog
      cases hlog
    · intro log hlog
      rw [hnone] at hlog
      cases hlog
    · intro log hd hlog
      rw [hnone] at hlog
      cases hlog
  | some hd =>
    rw [logSize_some _ hmon]
    refine ⟨hs.gameId, hs.delay, hs.handle, fun log _ => ⟨hd, hmon⟩, ?_, ?_⟩
    · intro log hlog
      simp only [trimLog, requiredLogSize, Option.map_map, Option.map_eq_some_iff,
        Function.comp_apply] at hlog
      obtain ⟨old, -, rfl⟩ := hlog
      have hle : int32 (1 + game.delaySeconds) ≤ d + 1 := by
        rw [hs.delay]
        refine (int32_le (by omega)).trans ?_
        omega
      rw [List.length_drop]
      omega
    · intro log hd' hlog hmon' hgood
      simp only [trimLog, Option.map_map, Option.map_eq_some_iff, Function.comp_apply] at hlog
      obtain ⟨old, hold, rfl⟩ := hlog
      have hsame : some hd = some hd' := hmon.symm.trans hmon'
      cases hsame
      obtain ⟨before, hbefore⟩ := hs.log old hd hold hmon hgood
      have hsize : hd.size w.files = (w.files.content G).length := by
        rw [Handle.size, if_pos hgood, (hs.handle hd hmon).1]
      refine (List.drop_suffix _ _).trans ⟨before, ?_⟩
      rw [← List.append_assoc, hbefore, hsize]
      simp [World.updateLogs]

theorem updateFileSizeLog_logged (files : Files) {game : GameInfo} {log : List ℤ}
    (hlog : game.demoFileSizeLog = some log) :
    ∃ log', (updateFileSizeLog files game).demoFileSizeLog = some log' := by
  have hs : ∃ log', (startMonitoring files game).demoFileSizeLog = some log' := by
    unfold startMonitoring
    split
    · split
      · exact ⟨log, hlog⟩
      · exact ⟨[], rfl⟩
    · exact ⟨log, hlog⟩
  obtain ⟨log1, hlog1⟩ := hs
  unfold updateFileSizeLog
  generalize startMonitoring files game = game at hlog1
  cases hmon : game.demoFile with
  | none => simp [logSize_none _ hmon, trimLog, hlog1]
  | some hd => simp [logSize_some _ hmon, trimLog, hlog1]

theorem EscrowOk.later_updateLogs (h : EscrowOk G d w) : Later G d w w.updateLogs := by
  refine ⟨fun g f hf => ⟨f, hf, rfl⟩, ?_, ?_⟩
  · intro game log hg hlog
    obtain ⟨log', hlog'⟩ := updateFileSizeLog_logged w.files hlog
    exact ⟨_, log', by simp [World.updateLogs, hg], hlog'⟩
  · by_cases hlt : d < w.sizes.length
    · have hold : w.horizon d G = w.sizeAt (w.sizes.length - 1 - d) G := by
        rw [World.horizon, if_pos hlt]
      have hnew : w.updateLogs.horizon d G = w.updateLogs.sizeAt (w.sizes.length - d) G := by
        rw [World.horizon, length_updateLogs, if_pos (by omega), Nat.add_sub_cancel]
      rw [hold, hnew]
      rcases Nat.eq_zero_or_pos d with rfl | hpos
      · rw [Nat.sub_zero w.sizes.length, sizeAt_updateLogs_last]
        exact h.grown _
      · rw [sizeAt_updateLogs (by omega)]
        exact h.mono _ _ (by omega) (by omega)
    · rw [World.horizon, if_neg hlt]
      exact Nat.zero_le _

theorem EscrowOk.updateLogs (h : EscrowOk G d w) : EscrowOk G d w.updateLogs where
  mono := by
    intro s t hst ht
    rw [length_updateLogs] at ht
    rcases Nat.lt_or_ge t w.sizes.length with hlt | hge
    · rw [sizeAt_updateLogs hlt, sizeAt_updateLogs (by omega)]
      exact h.mono s t hst hlt
    · have hlast : t = w.sizes.length := by omega
      rw [hlast, sizeAt_updateLogs_last]
      rcases Nat.lt_or_ge s w.sizes.length with hs | hs
      · rw [sizeAt_updateLogs hs]
        exact h.grown s
      · rw [show s = w.sizes.length by omega, sizeAt_updateLogs_last]
  grown := by
    intro t
    show _ ≤ (w.files.content G).length
    rcases Nat.lt_trichotomy t w.sizes.length with hlt | rfl | hgt
    · rw [sizeAt_updateLogs hlt]
      exact h.grown t
    · rw [sizeAt_updateLogs_last]
    · rw [World.sizeAt, List.getElem?_eq_none (by rw [length_updateLogs]; omega)]
      exact Nat.zero_le _
  game := by
    intro game' hg'
    simp only [World.updateLogs, Std.ExtTreeMap.getElem?_map] at hg'
    obtain ⟨game, hg, rfl⟩ := Option.map_eq_some_iff.mp hg'
    exact (h.game game hg).update
  users := by
    intro socket user hu
    exact (h.users socket user hu).later h.later_updateLogs
  revealed := by
    intro r hr hG
    obtain ⟨hd, hlt, hle⟩ := h.revealed r hr hG
    refine ⟨hd, by rw [length_updateLogs]; omega, ?_⟩
    rw [sizeAt_updateLogs (by omega)]
    exact hle

theorem GameOk.threshold {game : GameInfo} (h : GameOk G d w game)
    (hg : w.server.gameInfo[G]? = some game) {log : List ℤ} (hlog : game.demoFileSizeLog = some log)
    {f : DemoFile} (hf : w.files G = some f) (hr : f.readable = true) {maxBytes threshold : ℤ}
    {hd : Handle} (hthr : dataEscrowThreshold w.server.gameInfo maxBytes G hd = some threshold) :
    d < w.sizes.length ∧ threshold = int32 (w.horizon d G) := by
  obtain ⟨hm, hmon, hopen⟩ := h.monitor_good hlog hf hr
  have hdelay := h.delay
  simp only [dataEscrowThreshold, hg, hlog] at hthr
  cases log with
  | nil => cases hthr
  | cons front rest =>
    simp only [] at hthr
    split at hthr
    · rename_i hlen
      obtain ⟨hticks, hfront⟩ := h.front hlog hmon hopen (by omega)
      rw [List.head?_cons, hthr] at hfront
      exact ⟨hticks, Option.some.inj hfront⟩
    · cases hthr

theorem UserOk.service (h : EscrowOk G d w) {user : UserContext} (hu : UserOk G d w user) :
    UserOk G d w (w.service user).1 ∧ (World.gameOf user = G → ∀ c ∈ (w.service user).2,
      d < w.sizes.length ∧ c.offset + c.data.length ≤ w.horizon d G) := by
  unfold World.service serviceUser
  cases hdemo : user.demoFile with
  | none => exact ⟨hu, by simp⟩
  | some hd =>
    simp only []
    cases hthr : dataEscrowThreshold w.server.gameInfo w.server.maxBytesPerUserPerSecond user.gameId hd with
    | none => exact ⟨hu, by simp⟩
    | some threshold =>
      simp only []
      obtain ⟨hgame, hgood⟩ := sendChunks_handle w.files threshold w.server.maxBytesPerUserPerSecond
        w.server.maxBytesPerUserPerSecond.toNat hd user.bytesToWrite
      cases hopen : hd.good with
      | false =>
        rw [sendChunks_bad _ _ _ _ _ _ hopen]
        exact ⟨hu.same hdemo.symm rfl, by simp⟩
      | true =>
        obtain ⟨f, hf, hr⟩ := hu.readable hd hdemo hopen
        by_cases hG : hd.game = G
        · rw [hG] at hf
          obtain ⟨hid, ⟨game, log, hg, hlog⟩, hpos⟩ := hu.escrowed hd hdemo hopen hG
          rw [hid] at hthr
          obtain ⟨hticks, hhorizon⟩ := (h.game game hg).threshold hg hlog hf hr hthr
          rw [hhorizon]
          obtain ⟨hall, hpos', hgame', hgood'⟩ := sendChunks_below w.files
            w.server.maxBytesPerUserPerSecond w.server.maxBytesPerUserPerSecond.toNat hd
            user.bytesToWrite hopen hpos
          refine ⟨⟨?_, ?_⟩, fun _ c hc => ⟨hticks, hall c hc⟩⟩
          · intro hd' hdemo' _
            cases hdemo'
            exact ⟨f, by rw [hgame', hG]; exact hf, hr⟩
          · intro hd' hdemo' _ _
            cases hdemo'
            exact ⟨hid, ⟨game, log, hg, hlog⟩, hpos'⟩
        · refine ⟨⟨?_, ?_⟩, ?_⟩
          · intro hd' hdemo' _
            cases hdemo'
            exact ⟨f, by rw [hgame]; exact hf, hr⟩
          · intro hd' hdemo' _ hG'
            cases hdemo'
            exact absurd (hgame.symm.trans hG') hG
          · intro hG'
            exact absurd (by simpa [World.gameOf, hdemo] using hG') hG

theorem EscrowOk.serviceUsers (h : EscrowOk G d w) (hticks : 0 < w.sizes.length) :
    EscrowOk G d w.serviceUsers := by
  have husers : ∀ (socket : ℕ) (user : UserContext),
      (w.server.users.map fun _ user => (w.service user).1)[socket]? = some user →
        UserOk G d w user := by
    intro socket user' hu'
    rw [Std.ExtTreeMap.getElem?_map] at hu'
    obtain ⟨user, hu, rfl⟩ := Option.map_eq_some_iff.mp hu'
    exact (UserOk.service h (h.users socket user hu)).1
  have hset : EscrowOk G d { w with
      server := { w.server with users := w.server.users.map fun _ user => (w.service user).1 }
      written := w.serviceUsers.written } := h.setUsers husers
  refine ⟨hset.mono, hset.grown, fun game hg => (hset.game game hg).later ?_ rfl,
    fun socket user hu => (hset.users socket user hu).later ?_, ?_⟩
  · exact ⟨fun g f hf => ⟨f, hf, rfl⟩, fun game log hg hlog => ⟨game, log, hg, hlog⟩, le_rfl⟩
  · exact ⟨fun g f hf => ⟨f, hf, rfl⟩, fun game log hg hlog => ⟨game, log, hg, hlog⟩, le_rfl⟩
  · intro r hr hG
    rcases List.mem_append.mp hr with hr | hr
    · exact h.revealed r hr hG
    · obtain ⟨⟨socket, user⟩, hu, hr⟩ := List.mem_flatMap.mp hr
      obtain ⟨c, hc, rfl⟩ := List.mem_map.mp hr
      rw [Std.ExtTreeMap.mem_toList_iff_getElem?_eq_some] at hu
      obtain ⟨hd, hle⟩ := (UserOk.service h (h.users socket user hu)).2 hG c hc
      rw [World.horizon, if_pos hd] at hle
      exact ⟨by simp only []; omega, by simp only [World.serviceUsers]; omega, hle⟩

theorem EscrowOk.step (h : EscrowOk G d w) {e : Event} (hconst : ConstantDelay G d e)
    (hok : SubscribesLogged G w e) (hs : w.step e = some w') : EscrowOk G d w' := by
  cases e with
  | create game readable => exact h.create hs
  | append game data => exact h.append hs
  | setGameInfo gameId delaySeconds state =>
    cases hs
    exact h.setGameInfo hconst
  | newConnection socket =>
    cases hs
    unfold World.newConnection
    split
    · exact h
    · exact h.setUser (userOk_of_no_file rfl)
  | disconnected socket =>
    cases hs
    exact h.removeUser
  | readyRead socket chunk => exact h.readyRead hok hs
  | bytesWritten socket n =>
    cases hs
    unfold World.bytesWritten
    split
    · exact h
    · rename_i user hu
      exact h.setUser ((h.users socket user hu).same rfl rfl)
  | timerEvent =>
    simp only [World.step, World.timerEvent] at hs
    split at hs
    · cases hs
    · cases hs
      exact h.updateLogs.serviceUsers (by rw [length_updateLogs]; omega)

theorem escrowOk_new (G d : ℕ) (maxBytes : ℤ) : EscrowOk G d (World.new maxBytes) where
  mono := fun s t _ ht => absurd ht (Nat.not_lt_zero t)
  grown := fun t => Nat.zero_le _
  game := by
    intro game hg
    simp [World.new, Server.new] at hg
  users := by
    intro socket user hu
    simp [World.new, Server.new] at hu
  revealed := by
    intro r hr
    cases hr

end steps

theorem revealed_escrowed (G d : ℕ) (maxBytes : ℤ) (w : World)
    (h : Runs World.step (fun w e => ConstantDelay G d e ∧ SubscribesLogged G w e)
      (World.new maxBytes) w) :
    ∀ r ∈ w.revealed, r.game = G →
      d ≤ r.tick ∧ r.chunk.offset + r.chunk.data.length ≤ w.sizeAt (r.tick - d) G := by
  have hall : EscrowOk G d w :=
    Runs.invariant h (escrowOk_new G d maxBytes) fun t e t' ht he hs => ht.step he.1 he.2 hs
  intro r hr hG
  obtain ⟨hd, -, hle⟩ := hall.revealed r hr hG
  exact ⟨hd, hle⟩

/-- Game 7 has a delay of one tick; its subscriber sees three bytes at the second tick and the
fourth one at the third. -/
theorem revealed_escrowed_delay_one : ∃ w, run (guarded World.step
      fun w e => ConstantDelay 7 1 e ∧ SubscribesLogged 7 w e) (World.new 1000)
      [.create 7 true, .append 7 [1, 2, 3], .setGameInfo 7 1 "live", .timerEvent, .newConnection 5,
        .readyRead 5 (subscribeCommand 7 0).send, .append 7 [4], .timerEvent, .timerEvent] = some w ∧
    w.revealed = [⟨5, 7, ⟨0, [1, 2, 3]⟩, 1⟩, ⟨5, 7, ⟨3, [4]⟩, 2⟩] ∧
    ∀ r ∈ w.revealed, r.game = 7 →
      1 ≤ r.tick ∧ r.chunk.offset + r.chunk.data.length ≤ w.sizeAt (r.tick - 1) 7 := by
  have hrun : ((run (guarded World.step fun w e => ConstantDelay 7 1 e ∧ SubscribesLogged 7 w e)
      (World.new 1000) [.create 7 true, .append 7 [1, 2, 3], .setGameInfo 7 1 "live", .timerEvent,
        .newConnection 5, .readyRead 5 (subscribeCommand 7 0).send, .append 7 [4], .timerEvent,
        .timerEvent]).map (·.revealed)) =
      some [⟨5, 7, ⟨0, [1, 2, 3]⟩, 1⟩, ⟨5, 7, ⟨3, [4]⟩, 2⟩] := by
    decide +kernel
  obtain ⟨w, hw, hrev⟩ := Option.map_eq_some_iff.mp hrun
  exact ⟨w, hw, hrev, revealed_escrowed 7 1 1000 w (Runs.of_run_guarded _ hw)⟩

/-- Without the condition on subscriptions: a file with a delay of five ticks is sent in the first
one, to a user who subscribed before it was logged. -/
theorem unlogged_subscription_reveals : ¬ ∀ (G d : ℕ) (maxBytes : ℤ) (w : World),
    Runs World.step (fun _ e => ConstantDelay G d e) (World.new maxBytes) w →
    ∀ r ∈ w.revealed, r.game = G →
      d ≤ r.tick ∧ r.chunk.offset + r.chunk.data.length ≤ w.sizeAt (r.tick - d) G := by
  intro hall
  have hrun : ((run (guarded World.step fun _ e => ConstantDelay 7 5 e) (World.new 1000)
      [.create 7 true, .append 7 [1, 2, 3], .setGameInfo 7 5 "live", .newConnection 5,
        .readyRead 5 (subscribeCommand 7 0).send, .timerEvent]).map (·.revealed)) =
      some [⟨5, 7, ⟨0, [1, 2, 3]⟩, 0⟩] := by
    decide +kernel
  obtain ⟨w, hw, hrev⟩ := Option.map_eq_some_iff.mp hrun
  have h := hall 7 5 1000 w (Runs.of_run_guarded _ hw) ⟨5, 7, ⟨0, [1, 2, 3]⟩, 0⟩
    (by rw [hrev]; exact List.mem_singleton.mpr rfl) rfl
  exact absurd h.1 (by decide)

end Gpgnet4TA.Tareplay
