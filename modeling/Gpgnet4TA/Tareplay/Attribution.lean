import Gpgnet4TA.Tareplay.PlayerNumbers

/-!
# Who a move is from

The number of a player is kept in the context of its connection. It is given when the
headers are written, by the place of the player in the locked-in list, and taken over by a
connection that reconnects. `Session` notes beside the compiler which connection speaks for
a player, as the clients see it, and the moves that were written for a game.
-/

namespace Gpgnet4TA.Tareplay.TaDemoCompiler
open Gpgnet4TA.Lib Gpgnet4TA.Tapacket

/-! ### What the clients promise -/

structure Moved where
  dpid : ℕ
  moves : Bytes
  clock : Clock
  deriving DecidableEq

/-- `holder` is the newest connection of a player, `moved` what was written for a game
since its headers. -/
structure Session where
  compiler : TaDemoCompiler
  holder : ℕ × ℕ → Option ℕ
  moved : ℕ → List Moved

namespace Session

def new (demoPathTemplate : PathTemplate) (minDemoSize : ℕ) : Session :=
  ⟨.new demoPathTemplate minDemoSize, fun _ => none, fun _ => []⟩

/-- The player that a connection says it is for. -/
def introduces (s : TaDemoCompiler) : Event → Option ((ℕ × ℕ) × ℕ)
  | .readyRead socket (.hello gameId dpid _) _ | .readyRead socket (.reconnect gameId dpid) _ =>
    if socket ∈ s.connected then some ((gameId, dpid), socket) else none
  | _ => none

/-- The move of game `k` that an event writes. -/
def writes (s : TaDemoCompiler) (k : ℕ) : Event → List Moved
  | .readyRead socket (.move moves) clock =>
    let user := s.contexts socket
    if s.Speaks socket ∧ user.gameId = k ∧ (s.registered user.identity).isSome ∧
        TADemoWriter.Fits (movePacket user.gamePlayerNumber moves clock).serialise then
      [⟨user.playerDpId, moves, clock⟩]
    else []
  | _ => []

def next (w : Session) (e : Event) : Session where
  compiler := w.compiler.step e
  holder := match introduces w.compiler e with
    | some (p, socket) => Function.update w.holder p (some socket)
    | none => w.holder
  moved k := if (w.compiler.demo k).isNone then [] else w.moved k ++ writes w.compiler k e

def step (w : Session) (e : Event) : Option Session := some (w.next e)

/-- No newer connection has introduced the player that this one is for. -/
def Current (w : Session) (socket : ℕ) : Prop :=
  ∀ newest ∈ w.holder (w.compiler.contexts socket).identity, newest ≤ socket

/-- A player comes by `Hello` on its first connection and by `Reconnect` on a later one; the
connections before the newest are silent; nobody is locked in twice. -/
def Protocol (w : Session) : Event → Prop
  | .readyRead socket (.hello gameId dpid _) _ =>
    w.holder (gameId, dpid) = none ∨ w.holder (gameId, dpid) = some socket
  | .readyRead socket (.reconnect gameId dpid) _ => ∃ old ∈ w.holder (gameId, dpid), old < socket
  | .readyRead socket (.gamePlayerLoading lockedIn) _ => w.Current socket ∧ lockedIn.Nodup
  | .readyRead socket _ _ => w.Current socket
  | _ => True

/-- Every player of the list is still who its connection is for, and the headers fit. -/
def Committable (s : TaDemoCompiler) (gameId : ℕ) (game : GameContext) (lockedIn : List ℕ) (clock : Clock) :
    Prop :=
  (∀ dpid ∈ lockedIn, ∀ socket ∈ game.players[dpid]?, (s.contexts socket).identity = (gameId, dpid)) ∧
    lockedIn.length ≤ 255 ∧ ∀ r ∈ s.recordsOf game lockedIn clock.date, TADemoWriter.Fits r

/-- The number of a connection does not outlive what it was given for: a connection with a
number does not take on another player, and a list is not locked in with players whose
connection has. -/
def Safe (w : Session) : Event → Prop
  | .readyRead socket (.hello gameId dpid _) _ =>
    let user := w.compiler.contexts socket
    user.gamePlayerNumber = 0 ∨
      user.identity = (gameId, dpid) ∧ w.compiler.registered (gameId, dpid) = some socket
  | .readyRead socket (.reconnect gameId dpid) _ =>
    (w.compiler.contexts socket).gamePlayerNumber = 0 ∧
      ∀ old ∈ w.compiler.registered (gameId, dpid),
        (w.compiler.contexts old).identity = (gameId, dpid) ∨ (w.compiler.contexts old).gamePlayerNumber = 0
  | .readyRead socket (.gamePlayerLoading lockedIn) clock =>
    let gameId := (w.compiler.contexts socket).gameId
    ∀ game ∈ w.compiler.games[gameId]?, game.demoCompilation = none → Registered game lockedIn →
      Committable w.compiler gameId game lockedIn clock
  | _ => True

instance (w : Session) (socket : ℕ) : Decidable (w.Current socket) :=
  inferInstanceAs (Decidable (∀ newest ∈ w.holder _, newest ≤ socket))

instance (s : TaDemoCompiler) (gameId : ℕ) (game : GameContext) (lockedIn : List ℕ) (clock : Clock) :
    Decidable (Committable s gameId game lockedIn clock) := inferInstanceAs (Decidable (_ ∧ _ ∧ _))

instance (w : Session) (e : Event) : Decidable (w.Protocol e) :=
  match e with
  | .readyRead _ msg _ =>
    match msg with
    | .hello .. => inferInstanceAs (Decidable (_ ∨ _))
    | .reconnect gameId dpid => inferInstanceAs (Decidable (∃ old ∈ w.holder (gameId, dpid), old < _))
    | .gamePlayerLoading _ => inferInstanceAs (Decidable (_ ∧ _))
    | .move _ | .gameInfo _ | .gamePlayer _ | .unitData _ => inferInstanceAs (Decidable (w.Current _))
  | .newConnection _ | .disconnected _ | .timerEvent => inferInstanceAs (Decidable True)

instance (w : Session) (e : Event) : Decidable (w.Safe e) :=
  match e with
  | .readyRead socket msg _ =>
    match msg with
    | .hello .. => inferInstanceAs (Decidable (_ ∨ _ ∧ _))
    | .reconnect gameId dpid =>
      inferInstanceAs (Decidable (_ ∧ ∀ old ∈ w.compiler.registered (gameId, dpid), _ ∨ _))
    | .gamePlayerLoading lockedIn =>
      inferInstanceAs (Decidable (∀ game ∈ w.compiler.games[(w.compiler.contexts socket).gameId]?, game.demoCompilation = none →
        Registered game lockedIn → Committable w.compiler _ game lockedIn _))
    | .move _ | .gameInfo _ | .gamePlayer _ | .unitData _ => inferInstanceAs (Decidable True)
  | .newConnection _ | .disconnected _ | .timerEvent => inferInstanceAs (Decidable True)

/-! ### The invariant -/

/-- The content of a demo: headers with the players numbered by their places, then the
moves, each under the number of its player. -/
def Attributed (lockedIn : List ℕ) (output : Bytes) (moved : List Moved) : Prop :=
  ∃ (game : GameContext) (users : List UserContext) (date : Vector Byte 10),
    users.map (·.playerDpId) = lockedIn ∧ users.map (·.gamePlayerNumber) = lockedIn.map (position lockedIn) ∧
    output = (headerRecords game users date).flatMap TADemoWriter.frame ++ moved.flatMap fun m =>
      TADemoWriter.frame (movePacket (position lockedIn m.dpid) m.moves m.clock).serialise

structure Inv (w : Session) : Prop where
  connected : ∀ c ∈ w.compiler.connected, c < w.compiler.connections
  held : ∀ p c, w.holder p = some c → c < w.compiler.connections
  registered : ∀ p c, w.compiler.registered p = some c → w.holder p = some c
  identity : ∀ c < w.compiler.connections, (w.compiler.contexts c).gameId ≠ 0 →
    ∃ newest, c ≤ newest ∧ w.holder (w.compiler.contexts c).identity = some newest
  number : ∀ p c, w.compiler.registered p = some c → (w.compiler.contexts c).identity = p →
    (w.compiler.contexts c).gamePlayerNumber = numberOf (w.compiler.demo p.1) p.2
  lockedIn : ∀ k d, w.compiler.demo k = some d → ∀ dpid ∈ d.1,
    ∃ c, w.compiler.registered (k, dpid) = some c ∧ (w.compiler.contexts c).identity = (k, dpid)
  distinct : ∀ k d, w.compiler.demo k = some d → d.1.Nodup ∧ d.1.length ≤ 255
  file : ∀ k d, w.compiler.demo k = some d → Attributed d.1 d.2 (w.moved k)

theorem inv_new (t : PathTemplate) (n : ℕ) : Inv (new t n) where
  connected c hc := absurd hc (Finset.notMem_empty c)
  held p c h := by cases h
  registered p c h := by cases h
  identity c hc := absurd hc (Nat.not_lt_zero c)
  number p c h := by cases h
  lockedIn k d h := by cases h
  distinct k d h := by cases h
  file k d h := by cases h

section steps

variable {w w' : Session}

/-- The demos keep their notes. -/
def SameNotes (w w' : Session) : Prop := ∀ k d, w.compiler.demo k = some d → w'.moved k = w.moved k

theorem Inv.quiet (h : Inv w) (hq : Quiet w.compiler w'.compiler) (hholder : w'.holder = w.holder)
    (hmoved : SameNotes w w') : Inv w' where
  connected c hc := by
    rw [hq.connections]
    exact h.connected c (hq.connected hc)
  held p c hp := by
    rw [hq.connections]
    exact h.held p c (hholder ▸ hp)
  registered p c hp := by
    rw [hholder]
    exact h.registered p c (hq.registered ▸ hp)
  identity c hc hid := by
    have hgame : (w'.compiler.contexts c).gameId = (w.compiler.contexts c).gameId :=
      congrArg Prod.fst (hq.identity c)
    rw [hq.identity, hholder]
    exact h.identity c (hq.connections ▸ hc) (hgame ▸ hid)
  number p c hp hid := by
    rw [hq.number, hq.demo]
    exact h.number p c (hq.registered ▸ hp) ((hq.identity c).symm.trans hid)
  lockedIn k d hd dpid hdpid := by
    rw [hq.registered]
    obtain ⟨c, hc, hid⟩ := h.lockedIn k d (hq.demo ▸ hd) dpid hdpid
    exact ⟨c, hc, (hq.identity c).trans hid⟩
  distinct k d hd := h.distinct k d (hq.demo ▸ hd)
  file k d hd := by
    rw [hq.demo] at hd
    rw [hmoved k d hd]
    exact h.file k d hd

theorem Inv.number_pos (h : Inv w) {k dpid c : ℕ} {d : List ℕ × Bytes} (hd : w.compiler.demo k = some d)
    (hdpid : dpid ∈ d.1) (hc : w.compiler.registered (k, dpid) = some c) :
    0 < (w.compiler.contexts c).gamePlayerNumber := by
  obtain ⟨c', hc', hid⟩ := h.lockedIn k d hd dpid hdpid
  rw [hc] at hc'
  cases hc'
  rw [h.number _ c hc hid, hd]
  show 0 < position d.1 dpid
  rw [position_of_mem hdpid]
  exact Nat.succ_pos _

theorem Inv.numberOf_eq_zero (h : Inv w) {p : ℕ × ℕ}
    (hzero : ∀ c, w.compiler.registered p = some c → (w.compiler.contexts c).gamePlayerNumber = 0) :
    numberOf (w.compiler.demo p.1) p.2 = 0 := by
  cases hd : w.compiler.demo p.1 with
  | none => rfl
  | some d =>
    apply position_of_notMem
    intro hmem
    obtain ⟨c, hc, -⟩ := h.lockedIn p.1 d hd p.2 hmem
    have hpos := h.number_pos hd hmem hc
    have hbad := hzero c hc
    omega

theorem Inv.introduce (h : Inv w) {c : ℕ} {p : ℕ × ℕ} {user : UserContext} (hc : c ∈ w.compiler.connected)
    (hconnected : w'.compiler.connected = w.compiler.connected)
    (hconnections : w'.compiler.connections = w.compiler.connections)
    (hcontexts : w'.compiler.contexts = Function.update w.compiler.contexts c user)
    (hregistered : w'.compiler.registered = Function.update w.compiler.registered p (some c))
    (hdemo : w'.compiler.demo = w.compiler.demo) (hholder : w'.holder = Function.update w.holder p (some c))
    (hmoved : SameNotes w w') (hnewest : ∀ old, w.holder p = some old → old ≤ c) (hidentity : user.identity = p)
    (hnumber : user.gamePlayerNumber = numberOf (w.compiler.demo p.1) p.2)
    (hfree : (w.compiler.contexts c).gamePlayerNumber = 0 ∨ (w.compiler.contexts c).identity = p) : Inv w' where
  connected c' hc' := by
    rw [hconnections]
    rw [hconnected] at hc'
    exact h.connected c' hc'
  held p' c' hp' := by
    rw [hholder, Function.update_apply] at hp'
    rw [hconnections]
    split at hp'
    · cases hp'
      exact h.connected c hc
    · exact h.held p' c' hp'
  registered p' c' hp' := by
    rw [hregistered, Function.update_apply] at hp'
    rw [hholder, Function.update_apply]
    split at hp'
    · rename_i hpp
      rw [if_pos hpp, hp']
    · rename_i hpp
      rw [if_neg hpp]
      exact h.registered p' c' hp'
  identity c' hc' hid := by
    rw [hcontexts, Function.update_apply] at hid ⊢
    rw [hholder, Function.update_apply]
    by_cases hcc : c' = c
    · rw [if_pos hcc, if_pos hidentity]
      exact ⟨c, hcc.le, rfl⟩
    · rw [if_neg hcc] at hid ⊢
      obtain ⟨newest, hle, hold⟩ := h.identity c' (hconnections ▸ hc') hid
      by_cases hpp : (w.compiler.contexts c').identity = p
      · rw [if_pos hpp]
        exact ⟨c, hle.trans (hnewest newest (hpp ▸ hold)), rfl⟩
      · rw [if_neg hpp]
        exact ⟨newest, hle, hold⟩
  number p' c' hp' hid := by
    rw [hregistered, Function.update_apply] at hp'
    rw [hcontexts, Function.update_apply] at hid ⊢
    rw [hdemo]
    split at hp'
    · rename_i hpp
      cases hp'
      rw [if_pos rfl, hnumber, hpp]
    · rename_i hpp
      by_cases hcc : c' = c
      · rw [if_pos hcc] at hid
        exact absurd (hid.symm.trans hidentity) hpp
      · rw [if_neg hcc] at hid ⊢
        exact h.number p' c' hp' hid
  lockedIn k d hd dpid hdpid := by
    rw [hdemo] at hd
    rw [hregistered, hcontexts]
    by_cases hpp : (k, dpid) = p
    · refine ⟨c, ?_, ?_⟩
      · rw [hpp, Function.update_self]
      · rw [Function.update_self, hpp, hidentity]
    · obtain ⟨c', hc', hid⟩ := h.lockedIn k d hd dpid hdpid
      have hcc : c' ≠ c := by
        intro heq
        obtain rfl := heq
        have hpos := h.number_pos hd hdpid hc'
        rcases hfree with hzero | hsame
        · omega
        · exact hpp (hid.symm.trans hsame)
      refine ⟨c', ?_, ?_⟩
      · rw [Function.update_of_ne hpp, hc']
      · rw [Function.update_of_ne hcc, hid]
  distinct k d hd := h.distinct k d (hdemo ▸ hd)
  file k d hd := by
    rw [hdemo] at hd
    rw [hmoved k d hd]
    exact h.file k d hd

theorem Inv.connect (h : Inv w) (user : UserContext) (hgameId : user.gameId = 0)
    (hconnected : w'.compiler.connected = insert w.compiler.connections w.compiler.connected)
    (hconnections : w'.compiler.connections = w.compiler.connections + 1)
    (hcontexts : w'.compiler.contexts = Function.update w.compiler.contexts w.compiler.connections user)
    (hgames : w'.compiler.games = w.compiler.games) (hholder : w'.holder = w.holder)
    (hmoved : SameNotes w w') : Inv w' := by
  have hregistered : w'.compiler.registered = w.compiler.registered := by
    funext p
    rw [TaDemoCompiler.registered, hgames]
    rfl
  have hdemo : w'.compiler.demo = w.compiler.demo := by
    funext k
    rw [demo, hgames]
    rfl
  have hold : ∀ p c, w.compiler.registered p = some c → w'.compiler.contexts c = w.compiler.contexts c := by
    intro p c hp
    have hlt := h.held p c (h.registered p c hp)
    rw [hcontexts, Function.update_of_ne hlt.ne]
  constructor
  · intro c hc
    rw [hconnected, Finset.mem_insert] at hc
    rw [hconnections]
    rcases hc with rfl | hc
    · exact Nat.lt_succ_self _
    · exact Nat.lt_succ_of_lt (h.connected c hc)
  · intro p c hp
    rw [hholder] at hp
    rw [hconnections]
    exact Nat.lt_succ_of_lt (h.held p c hp)
  · intro p c hp
    rw [hregistered] at hp
    rw [hholder]
    exact h.registered p c hp
  · intro c hc hid
    rw [hcontexts, Function.update_apply] at hid ⊢
    by_cases hcc : c = w.compiler.connections
    · rw [if_pos hcc] at hid
      exact absurd hgameId hid
    · rw [if_neg hcc] at hid ⊢
      rw [hholder]
      exact h.identity c (by omega) hid
  · intro p c hp hid
    rw [hregistered] at hp
    rw [hold p c hp] at hid ⊢
    rw [hdemo]
    exact h.number p c hp hid
  · intro k d hd dpid hdpid
    rw [hdemo] at hd
    obtain ⟨c, hc, hid⟩ := h.lockedIn k d hd dpid hdpid
    exact ⟨c, by rw [hregistered, hc], by rw [hold _ c hc, hid]⟩
  · intro k d hd
    exact h.distinct k d (hdemo ▸ hd)
  · intro k d hd
    rw [hdemo] at hd
    rw [hmoved k d hd]
    exact h.file k d hd

theorem Inv.tick (h : Inv w) (hcompiler : w'.compiler = w.compiler.closeExpiredGames)
    (hholder : w'.holder = w.holder) (hmoved : SameNotes w w') : Inv w' := by
  obtain ⟨-, -, hconnected, hconnections, hcontexts⟩ := sameBut_closeExpiredGames w.compiler
  constructor
  · rw [hcompiler, hconnected, hconnections]
    exact h.connected
  · rw [hcompiler, hholder, hconnections]
    exact h.held
  · intro p c hp
    rw [hcompiler] at hp
    rw [hholder]
    exact h.registered p c (registered_closeExpiredGames hp).1
  · rw [hcompiler, hholder, hconnections, hcontexts]
    exact h.identity
  · intro p c hp hid
    rw [hcompiler] at hp hid ⊢
    rw [hcontexts] at hid ⊢
    obtain ⟨hold, hdemo⟩ := registered_closeExpiredGames hp
    rw [hdemo]
    exact h.number p c hold hid
  · intro k d hd dpid hdpid
    rw [hcompiler] at hd ⊢
    rw [hcontexts]
    obtain ⟨hold, hsame⟩ := demo_closeExpiredGames hd
    rw [hsame]
    exact h.lockedIn k d hold dpid hdpid
  · intro k d hd
    rw [hcompiler] at hd
    exact h.distinct k d (demo_closeExpiredGames hd).1
  · intro k d hd
    rw [hcompiler] at hd
    obtain ⟨hold, -⟩ := demo_closeExpiredGames hd
    rw [hmoved k d hold]
    exact h.file k d hold

/-- One more move in the demo of game `g`. -/
theorem Inv.move (h : Inv w) {g : ℕ} {lockedIn : List ℕ} {output : Bytes} {m : Moved}
    (hconnected : w'.compiler.connected = w.compiler.connected)
    (hconnections : w'.compiler.connections = w.compiler.connections)
    (hcontexts : w'.compiler.contexts = w.compiler.contexts)
    (hregistered : w'.compiler.registered = w.compiler.registered) (hholder : w'.holder = w.holder)
    (hold : w.compiler.demo g = some (lockedIn, output))
    (hdemo : w'.compiler.demo = Function.update w.compiler.demo g (some (lockedIn, output ++
      TADemoWriter.frame (movePacket (position lockedIn m.dpid) m.moves m.clock).serialise)))
    (hmoved : w'.moved g = w.moved g ++ [m])
    (hothers : ∀ k d, k ≠ g → w.compiler.demo k = some d → w'.moved k = w.moved k) : Inv w' := by
  have hlist : ∀ k d, w'.compiler.demo k = some d → ∃ o, w.compiler.demo k = some (d.1, o) := by
    intro k d hd
    rw [hdemo, Function.update_apply] at hd
    split at hd
    · rename_i hk
      cases hd
      exact ⟨output, hk ▸ hold⟩
    · exact ⟨d.2, hd⟩
  have hnumber : ∀ k dpid, numberOf (w'.compiler.demo k) dpid = numberOf (w.compiler.demo k) dpid := by
    intro k dpid
    rw [hdemo, Function.update_apply]
    split
    · rename_i hk
      rw [hk, hold]
      rfl
    · rfl
  constructor
  · rw [hconnected, hconnections]
    exact h.connected
  · rw [hholder, hconnections]
    exact h.held
  · rw [hregistered, hholder]
    exact h.registered
  · rw [hholder, hconnections, hcontexts]
    exact h.identity
  · intro p c hp hid
    rw [hregistered] at hp
    rw [hcontexts] at hid ⊢
    rw [hnumber]
    exact h.number p c hp hid
  · intro k d hd dpid hdpid
    obtain ⟨o, ho⟩ := hlist k d hd
    rw [hregistered, hcontexts]
    exact h.lockedIn k _ ho dpid hdpid
  · intro k d hd
    obtain ⟨o, ho⟩ := hlist k d hd
    exact h.distinct k (d.1, o) ho
  · intro k d hd
    rw [hdemo, Function.update_apply] at hd
    split at hd
    · rename_i hk
      subst hk
      cases hd
      obtain ⟨game, users, date, hdpids, hnumbers, hout⟩ := h.file k _ hold
      refine ⟨game, users, date, hdpids, hnumbers, ?_⟩
      rw [hmoved, List.flatMap_append, ← List.append_assoc, ← hout, List.flatMap_cons, List.flatMap_nil,
        List.append_nil]
    · rename_i hk
      rw [hothers k d hk hd]
      exact h.file k d hd

section commit

variable {s : TaDemoCompiler} {g : ℕ} {game : GameContext} {lockedIn : List ℕ} {clock : Clock}

theorem registered_afterCommit (hgame : s.games[g]? = some game) (output : Option Bytes) :
    (s.afterCommit g game lockedIn output).registered = s.registered := by
  funext p
  have hset : (s.afterCommit g game lockedIn output).registered p =
      (s.setGame g { s.lockIn game lockedIn with demoCompilation := output }).registered p := rfl
  rw [hset, registered_setGame]
  split
  · rename_i hp
    rw [TaDemoCompiler.registered, hp, hgame]
    rfl
  · rfl

theorem demo_afterCommit (output : Bytes) :
    (s.afterCommit g game lockedIn (some output)).demo =
      Function.update s.demo g (some (lockedIn, output)) := by
  funext k
  have hset : (s.afterCommit g game lockedIn (some output)).demo k =
      (s.setGame g { s.lockIn game lockedIn with demoCompilation := some output }).demo k := rfl
  rw [hset, demo_setGame, Function.update_apply]
  rfl

variable (hcommit : Committable s g game lockedIn clock) (hnodup : lockedIn.Nodup)
include hcommit hnodup

theorem numbered_mem {dpid c : ℕ} (hmem : dpid ∈ lockedIn) (hc : game.players[dpid]? = some c) :
    s.numbered game lockedIn c = (s.contexts c).setNumber (position lockedIn dpid) := by
  have honly : ∀ d ∈ lockedIn, game.players[d]? = some c → d = dpid := by
    intro d hd hd'
    have h1 := hcommit.1 d hd c hd'
    have h2 := hcommit.1 dpid hmem c hc
    exact congrArg Prod.snd (h1.symm.trans h2)
  rw [numbered, assignNumbers_mem 0 s.contexts hnodup hmem hc honly, position_of_mem hmem, Nat.zero_add]

omit hnodup in
/-- A connection that is for a player outside the list keeps its number. -/
theorem numbered_other {c : ℕ} {p : ℕ × ℕ} (hid : (s.contexts c).identity = p)
    (hout : p.1 = g → p.2 ∉ lockedIn) : s.numbered game lockedIn c = s.contexts c := by
  apply assignNumbers_other
  intro d hd hbad
  have hsame := hid.symm.trans (hcommit.1 d hd c hbad)
  exact hout (congrArg Prod.fst hsame) (congrArg Prod.snd hsame ▸ hd)

theorem map_usersOf (hreg : Registered game lockedIn) :
    (usersOf game (s.numbered game lockedIn) lockedIn).map (·.playerDpId) = lockedIn ∧
      (usersOf game (s.numbered game lockedIn) lockedIn).map (·.gamePlayerNumber) =
        lockedIn.map (position lockedIn) := by
  have huser : ∀ dpid ∈ lockedIn, ∃ user, game.players[dpid]?.map (s.numbered game lockedIn) = some user ∧
      user.playerDpId = dpid ∧ user.gamePlayerNumber = position lockedIn dpid := by
    intro dpid hmem
    have hcontains := hreg dpid hmem
    rw [Std.ExtTreeMap.contains_eq_isSome_getElem?, Option.isSome_iff_exists] at hcontains
    obtain ⟨c, hc⟩ := hcontains
    refine ⟨_, by rw [hc]; rfl, ?_, ?_⟩
    · rw [numbered_mem hcommit hnodup hmem hc]
      exact congrArg Prod.snd (hcommit.1 dpid hmem c hc)
    · rw [numbered_mem hcommit hnodup hmem hc]
      rfl
  have hmap : ∀ (f F : _ → ℕ), (∀ dpid ∈ lockedIn,
      (game.players[dpid]?.map (s.numbered game lockedIn)).map f = some (F dpid)) →
      (usersOf game (s.numbered game lockedIn) lockedIn).map f = lockedIn.map F := by
    intro f F hF
    rw [usersOf, List.map_filterMap, ← List.filterMap_eq_map]
    exact List.filterMap_congr hF
  constructor
  · rw [hmap (·.playerDpId) id, List.map_id]
    intro dpid hmem
    obtain ⟨user, hsome, hdpid, -⟩ := huser dpid hmem
    rw [hsome, Option.map_some, hdpid]
    rfl
  · apply hmap
    intro dpid hmem
    obtain ⟨user, hsome, -, hnumber⟩ := huser dpid hmem
    rw [hsome, Option.map_some, hnumber]

end commit

/-- The headers of game `g` are written. -/
theorem Inv.commit (h : Inv w) {g : ℕ} {game : GameContext} {lockedIn : List ℕ} {clock : Clock}
    (hgame : w.compiler.games[g]? = some game) (hnone : game.demoCompilation = none)
    (hreg : Registered game lockedIn) (hnodup : lockedIn.Nodup)
    (hcommit : Committable w.compiler g game lockedIn clock)
    (hcompiler : w'.compiler = w.compiler.afterCommit g game lockedIn
      (some ((w.compiler.recordsOf game lockedIn clock.date).flatMap TADemoWriter.frame)))
    (hholder : w'.holder = w.holder) (hmoved : w'.moved g = []) (hothers : SameNotes w w') : Inv w' := by
  have hregistered : w'.compiler.registered = w.compiler.registered := by
    rw [hcompiler, registered_afterCommit hgame]
  have hdemo := congrArg demo hcompiler
  rw [demo_afterCommit] at hdemo
  have hcontexts : w'.compiler.contexts = w.compiler.numbered game lockedIn := by rw [hcompiler]; rfl
  have hconnections : w'.compiler.connections = w.compiler.connections := by rw [hcompiler]; rfl
  have hno : w.compiler.demo g = none := by
    rw [demo_of_game hgame, GameContext.demo, hnone]
    rfl
  have hidentity : ∀ c, (w'.compiler.contexts c).identity = (w.compiler.contexts c).identity := by
    intro c
    obtain ⟨number, hsame⟩ := assignNumbers_same game.players lockedIn 0 w.compiler.contexts c
    rw [hcontexts, numbered, hsame]
    rfl
  constructor
  · rw [hconnections, show w'.compiler.connected = w.compiler.connected by rw [hcompiler]; rfl]
    exact h.connected
  · rw [hholder, hconnections]
    exact h.held
  · rw [hregistered, hholder]
    exact h.registered
  · intro c hc hid
    have hgameId : (w'.compiler.contexts c).gameId = (w.compiler.contexts c).gameId :=
      congrArg Prod.fst (hidentity c)
    rw [hidentity, hholder]
    exact h.identity c (hconnections ▸ hc) (hgameId ▸ hid)
  · intro p c hp hid
    rw [hregistered] at hp
    rw [hidentity] at hid
    rw [hdemo, Function.update_apply, hcontexts]
    have hbefore := h.number p c hp hid
    by_cases hpg : p.1 = g
    · rw [if_pos hpg]
      have hc : game.players[p.2]? = some c := by
        rw [← registered_of_game hgame, ← hpg]
        exact hp
      show _ = position lockedIn p.2
      by_cases hmem : p.2 ∈ lockedIn
      · rw [numbered_mem hcommit hnodup hmem hc]
        rfl
      · rw [numbered_other hcommit hid (fun _ => hmem), hbefore, hpg, hno, position_of_notMem hmem]
        rfl
    · rw [if_neg hpg, numbered_other hcommit hid (fun hbad => absurd hbad hpg), hbefore]
  · intro k d hd dpid hdpid
    rw [hdemo, Function.update_apply] at hd
    rw [hregistered]
    simp only [hidentity]
    split at hd
    · rename_i hk
      subst hk
      cases hd
      have hcontains := hreg dpid hdpid
      rw [Std.ExtTreeMap.contains_eq_isSome_getElem?, Option.isSome_iff_exists] at hcontains
      obtain ⟨c, hc⟩ := hcontains
      exact ⟨c, by rw [registered_of_game hgame, hc], hcommit.1 dpid hdpid c hc⟩
    · exact h.lockedIn k d hd dpid hdpid
  · intro k d hd
    rw [hdemo, Function.update_apply] at hd
    split at hd
    · cases hd
      exact ⟨hnodup, hcommit.2.1⟩
    · exact h.distinct k d hd
  · intro k d hd
    rw [hdemo, Function.update_apply] at hd
    split at hd
    · rename_i hk
      subst hk
      cases hd
      obtain ⟨hdpids, hnumbers⟩ := map_usersOf hcommit hnodup hreg
      refine ⟨w.compiler.lockIn game lockedIn, _, clock.date, hdpids, hnumbers, ?_⟩
      rw [hmoved, List.flatMap_nil, List.append_nil]
      rfl
    · rw [hothers k d hd]
      exact h.file k d hd

/-! ### Every step -/

variable {e : Event}

theorem moved_next {k : ℕ} {d : List ℕ × Bytes} (h : w.compiler.demo k = some d) :
    (w.next e).moved k = w.moved k ++ writes w.compiler k e := by
  show (if (w.compiler.demo k).isNone then [] else w.moved k ++ writes w.compiler k e) = _
  rw [h]
  rfl

theorem sameNotes_next (h : ∀ k d, w.compiler.demo k = some d → writes w.compiler k e = []) :
    SameNotes w (w.next e) := by
  intro k d hd
  rw [moved_next hd, h k d hd, List.append_nil]

theorem holder_next (h : introduces w.compiler e = none) : (w.next e).holder = w.holder := by
  rw [next, h]

/-- The newest connection of a player speaks, and the game lists it. -/
theorem Inv.speaker (h : Inv w) {socket : ℕ} (hspeaks : w.compiler.Speaks socket) (hcurrent : w.Current socket)
    {c : ℕ} (hc : w.compiler.registered (w.compiler.contexts socket).identity = some c) : c = socket := by
  obtain ⟨newest, hle, hnewest⟩ := h.identity socket (h.connected socket hspeaks.1) hspeaks.2.1
  have hnew := hcurrent newest hnewest
  have hheld := h.registered _ c hc
  rw [hnewest] at hheld
  cases hheld
  omega

theorem Inv.hello (h : Inv w) {socket gameId dpid : ℕ} {name : Bytes} {clock : Clock}
    (hconn : socket ∈ w.compiler.connected)
    (hprotocol : w.Protocol (.readyRead socket (.hello gameId dpid name) clock))
    (hsafe : w.Safe (.readyRead socket (.hello gameId dpid name) clock)) :
    Inv (w.next (.readyRead socket (.hello gameId dpid name) clock)) := by
  have hstep : w.compiler.step (.readyRead socket (.hello gameId dpid name) clock) =
    w.compiler.onHello socket gameId dpid name := if_pos hconn
  have hintro : introduces w.compiler (.readyRead socket (.hello gameId dpid name) clock) =
    some ((gameId, dpid), socket) := if_pos hconn
  have hnewest : ∀ old, w.holder (gameId, dpid) = some old → old = socket := by
    intro old hold
    rcases hprotocol with hnone | hsame
    · rw [hnone] at hold
      cases hold
    · rw [hsame] at hold
      cases hold
      rfl
  apply h.introduce (p := (gameId, dpid)) hconn
  · show (w.compiler.step _).connected = _
    rw [hstep]
    rfl
  · show (w.compiler.step _).connections = _
    rw [hstep]
    rfl
  · show (w.compiler.step _).contexts = _
    rw [hstep]
    rfl
  · have hreg := congrArg TaDemoCompiler.registered hstep
    rw [onHello, registered_register] at hreg
    exact hreg
  · have hdemo := congrArg demo hstep
    rw [onHello, demo_register] at hdemo
    exact hdemo
  · rw [next, hintro]
  · exact sameNotes_next fun _ _ _ => rfl
  · exact fun old hold => (hnewest old hold).le
  · rfl
  · show (w.compiler.contexts socket).gamePlayerNumber = _
    rcases hsafe with hzero | ⟨hid, hreg⟩
    · rw [hzero, h.numberOf_eq_zero]
      intro c hc
      rw [hnewest c (h.registered _ c hc), hzero]
    · exact h.number _ _ hreg hid
  · rcases hsafe with hzero | ⟨hid, -⟩
    · exact Or.inl hzero
    · exact Or.inr hid

theorem Inv.reconnect (h : Inv w) {socket gameId dpid : ℕ} {clock : Clock}
    (hconn : socket ∈ w.compiler.connected)
    (hprotocol : w.Protocol (.readyRead socket (.reconnect gameId dpid) clock))
    (hsafe : w.Safe (.readyRead socket (.reconnect gameId dpid) clock)) :
    Inv (w.next (.readyRead socket (.reconnect gameId dpid) clock)) := by
  have hstep : w.compiler.step (.readyRead socket (.reconnect gameId dpid) clock) =
    w.compiler.onReconnect socket gameId dpid := if_pos hconn
  have hintro : introduces w.compiler (.readyRead socket (.reconnect gameId dpid) clock) =
    some ((gameId, dpid), socket) := if_pos hconn
  obtain ⟨holder, hholder, hlt⟩ := hprotocol
  apply h.introduce (p := (gameId, dpid)) hconn
  · show (w.compiler.step _).connected = _
    rw [hstep]
    rfl
  · show (w.compiler.step _).connections = _
    rw [hstep]
    rfl
  · show (w.compiler.step _).contexts = _
    rw [hstep]
    rfl
  · have hreg := congrArg TaDemoCompiler.registered hstep
    rw [onReconnect, registered_register] at hreg
    exact hreg
  · have hdemo := congrArg demo hstep
    rw [onReconnect, demo_register] at hdemo
    exact hdemo
  · rw [next, hintro]
  · exact sameNotes_next fun _ _ _ => rfl
  · intro old hold
    rw [hholder] at hold
    cases hold
    exact hlt.le
  · split <;> rfl
  · split
    · rename_i old hold
      show (w.compiler.contexts old).gamePlayerNumber = _
      rcases hsafe.2 old hold with hid | hzero
      · exact h.number _ old hold hid
      · rw [hzero, h.numberOf_eq_zero]
        intro c hc
        have hold : w.compiler.registered (gameId, dpid) = some old := hold
        rw [hold] at hc
        cases hc
        exact hzero
    · rename_i hnone
      show (w.compiler.contexts socket).gamePlayerNumber = _
      rw [hsafe.1, h.numberOf_eq_zero]
      intro c hc
      have hnone : w.compiler.registered (gameId, dpid) = none := hnone
      rw [hnone] at hc
      cases hc
  · exact Or.inl hsafe.1

theorem Inv.next_quiet (h : Inv w) (hq : Quiet w.compiler (w.compiler.step e))
    (hintroduces : introduces w.compiler e = none)
    (hwrites : ∀ k d, w.compiler.demo k = some d → writes w.compiler k e = []) : Inv (w.next e) :=
  h.quiet hq (holder_next hintroduces) (sameNotes_next hwrites)

theorem Inv.onMove (h : Inv w) {socket : ℕ} {moves : Bytes} {clock : Clock} (hspeaks : w.compiler.Speaks socket)
    (hcurrent : w.Current socket)
    (hstep : w.compiler.step (.readyRead socket (.move moves) clock) =
      w.compiler.onMove (w.compiler.contexts socket) moves clock) :
    Inv (w.next (.readyRead socket (.move moves) clock)) := by
  obtain ⟨user, huser⟩ : ∃ user, w.compiler.contexts socket = user := ⟨_, rfl⟩
  have hwrites : ∀ k, writes w.compiler k (.readyRead socket (.move moves) clock) =
      if w.compiler.Speaks socket ∧ user.gameId = k ∧ (w.compiler.registered user.identity).isSome ∧
          TADemoWriter.Fits (movePacket user.gamePlayerNumber moves clock).serialise then
        [⟨user.playerDpId, moves, clock⟩] else [] := by
    intro k
    rw [← huser]
    rfl
  rw [huser] at hstep
  cases hreg : w.compiler.registered user.identity with
  | none =>
    apply h.next_quiet (by rw [hstep]; exact quiet_onMove (Or.inl hreg)) rfl
    intro k d _
    rw [hwrites, hreg]
    exact if_neg fun hbad => by cases hbad.2.2.1
  | some c =>
    cases hdemo : w.compiler.demo user.gameId with
    | none =>
      apply h.next_quiet (by rw [hstep]; exact quiet_onMove (Or.inr (Or.inl hdemo))) rfl
      intro k d hd
      rw [hwrites]
      apply if_neg
      intro hx
      obtain ⟨-, rfl, -⟩ := hx
      rw [hdemo] at hd
      cases hd
    | some d =>
      by_cases hfits : TADemoWriter.Fits (movePacket user.gamePlayerNumber moves clock).serialise
      · obtain ⟨lockedIn, output⟩ := d
        -- the connection that moves is the one the game lists, so it has the player's number
        have hc : c = socket := h.speaker hspeaks hcurrent (by rw [huser, hreg])
        have hnumber : user.gamePlayerNumber = position lockedIn user.playerDpId := by
          have hown := h.number user.identity c hreg (by rw [hc, huser])
          rw [hc, huser] at hown
          rw [hown]
          show numberOf (w.compiler.demo user.gameId) _ = _
          rw [hdemo]
          rfl
        obtain ⟨game, hgame, hplayer⟩ := Option.bind_eq_some_iff.mp hreg
        have hgame : w.compiler.games[user.gameId]? = some game := hgame
        have hcontent : game.demo = some (lockedIn, output) := by rw [← demo_of_game hgame, hdemo]
        obtain ⟨out, hout, heq⟩ := Option.map_eq_some_iff.mp hcontent
        cases heq
        have hmove := onMove_written moves hgame (Table.contains_of_getElem? hplayer) hout hfits
        rw [hmove] at hstep
        refine h.move (m := ⟨user.playerDpId, moves, clock⟩) ?_ ?_ ?_ ?_ ?_ hdemo ?_ ?_ ?_
        · show (w.compiler.step _).connected = _
          rw [hstep]
          rfl
        · show (w.compiler.step _).connections = _
          rw [hstep]
          rfl
        · show (w.compiler.step _).contexts = _
          rw [hstep]
          rfl
        · show (w.compiler.step _).registered = _
          rw [hstep]
          funext p
          rw [registered_setGame]
          split
          · rename_i hp
            rw [TaDemoCompiler.registered, hp, hgame]
            rfl
          · rfl
        · rfl
        · show (w.compiler.step _).demo = _
          rw [hstep]
          funext k
          rw [demo_setGame, Function.update_apply, hnumber]
          rfl
        · rw [moved_next hdemo, hwrites, if_pos ⟨hspeaks, rfl, by rw [hreg]; rfl, hfits⟩]
        · intro k d hk hd
          rw [moved_next hd, hwrites, if_neg (fun hbad => hk hbad.2.1.symm), List.append_nil]
      · apply h.next_quiet (by rw [hstep]; exact quiet_onMove (Or.inr (Or.inr hfits))) rfl
        intro k d _
        rw [hwrites]
        exact if_neg fun hbad => hfits hbad.2.2.2

theorem Inv.onGamePlayerLoading (h : Inv w) {socket : ℕ} {lockedIn : List ℕ} {clock : Clock}
    (hnodup : lockedIn.Nodup) (hsafe : w.Safe (.readyRead socket (.gamePlayerLoading lockedIn) clock))
    (hstep : w.compiler.step (.readyRead socket (.gamePlayerLoading lockedIn) clock) =
      w.compiler.onGamePlayerLoading (w.compiler.contexts socket) lockedIn clock) :
    Inv (w.next (.readyRead socket (.gamePlayerLoading lockedIn) clock)) := by
  obtain hsame | ⟨game, hgame, hnone, hcase⟩ := onGamePlayerLoading_cases w.compiler
    (w.compiler.contexts socket) clock lockedIn
  · apply h.next_quiet (by rw [hstep, hsame]; exact .refl _) rfl
    exact fun _ _ _ => rfl
  · obtain ⟨-, hset⟩ | ⟨hreg, hfits, hset⟩ | ⟨hreg, hfits, -⟩ := hcase
    · have hkeep : (w.compiler.lockIn game lockedIn).demo = game.demo := by
        rw [GameContext.demo, GameContext.demo, lockIn, hnone]
        rfl
      apply h.next_quiet (by rw [hstep, hset]; exact quiet_entry _ hgame rfl hkeep) rfl
      exact fun _ _ _ => rfl
    · have hno : w.compiler.demo (w.compiler.contexts socket).gameId = none := by
        rw [demo_of_game hgame, GameContext.demo, hnone]
        rfl
      refine h.commit hgame hnone hreg hnodup (hsafe game hgame hnone hreg) (hstep.trans hset) rfl ?_ ?_
      · show (if (w.compiler.demo _).isNone then [] else _) = _
        rw [hno]
        rfl
      · exact sameNotes_next fun _ _ _ => rfl
    · exact absurd (hsafe game hgame hnone hreg).2.2 hfits

theorem Inv.next (h : Inv w) (hprotocol : w.Protocol e) (hsafe : w.Safe e) : Inv (w.next e) := by
  cases e with
  | newConnection addr =>
    exact h.connect (.new addr) rfl rfl rfl rfl rfl rfl (sameNotes_next fun _ _ _ => rfl)
  | disconnected socket =>
    apply h.next_quiet _ rfl fun _ _ _ => rfl
    exact ⟨Finset.erase_subset _ _, rfl, fun _ => rfl, fun _ => rfl, rfl, rfl⟩
  | timerEvent => exact h.tick rfl rfl (sameNotes_next fun _ _ _ => rfl)
  | readyRead socket msg clock =>
    obtain ⟨hnot, hstep⟩ | ⟨gameId, dpid, name, rfl, hconn, -⟩ | ⟨gameId, dpid, rfl, hconn, -⟩ |
      ⟨hspeaks, hstep⟩ := onReadyRead_cases w.compiler clock socket msg
    · have hquiet : introduces w.compiler (.readyRead socket msg clock) = none →
          Inv (w.next (.readyRead socket msg clock)) := by
        intro hintroduces
        apply h.next_quiet _ hintroduces
        · intro k d _
          cases msg with
          | move moves => exact if_neg fun hbad => hnot hbad.1
          | _ => rfl
        · show Quiet w.compiler (w.compiler.onReadyRead socket clock msg)
          rw [hstep]
          exact .refl _
      cases msg with
      | hello gameId dpid name =>
        by_cases hconn : socket ∈ w.compiler.connected
        · exact h.hello hconn hprotocol hsafe
        · exact hquiet (if_neg hconn)
      | reconnect gameId dpid =>
        by_cases hconn : socket ∈ w.compiler.connected
        · exact h.reconnect hconn hprotocol hsafe
        · exact hquiet (if_neg hconn)
      | _ => exact hquiet rfl
    · exact h.hello hconn hprotocol hsafe
    · exact h.reconnect hconn hprotocol hsafe
    · have hquiet : Quiet w.compiler (w.compiler.onGameMessage (w.compiler.contexts socket) clock msg) →
          Quiet w.compiler (w.compiler.step (.readyRead socket msg clock)) := by
        intro hq
        show Quiet w.compiler (w.compiler.onReadyRead socket clock msg)
        rw [hstep]
        exact hq
      cases msg with
      | hello gameId dpid name => exact h.hello hspeaks.1 hprotocol hsafe
      | reconnect gameId dpid => exact h.reconnect hspeaks.1 hprotocol hsafe
      | move moves => exact h.onMove hspeaks hprotocol hstep
      | gamePlayerLoading lockedIn => exact h.onGamePlayerLoading hprotocol.2 hsafe hstep
      | gameInfo msg =>
        exact h.next_quiet (hquiet (quiet_onGameInfo _ msg)) rfl fun _ _ _ => rfl
      | gamePlayer msg =>
        exact h.next_quiet (hquiet (quiet_onGamePlayer _ msg)) rfl fun _ _ _ => rfl
      | unitData unitData =>
        exact h.next_quiet (hquiet (quiet_onUnitData _ unitData)) rfl fun _ _ _ => rfl

end steps

/-! ### Every run -/

/-- The clients keep to the protocol and no number outlives what it was given for. -/
def Orderly (w : Session) (e : Event) : Prop := w.Protocol e ∧ w.Safe e

instance (w : Session) (e : Event) : Decidable (w.Orderly e) := inferInstanceAs (Decidable (_ ∧ _))

theorem inv_of_runs {t : PathTemplate} {n : ℕ} {w : Session} (h : Runs Session.step Orderly (.new t n) w) :
    Inv w := by
  refine Runs.invariant h (inv_new t n) ?_
  intro w e w' hw hx hgiven
  obtain ⟨hprotocol, hsafe⟩ := hx
  cases hgiven
  exact hw.next hprotocol hsafe

/-- Every move in a demo stands under the place of its player in the list that the headers
were written with, which is the number of that player in the headers. -/
theorem moves_attributed {t : PathTemplate} {n : ℕ} {w : Session}
    (h : Runs Session.step Orderly (.new t n) w) {k : ℕ} {lockedIn : List ℕ} {output : Bytes}
    (hdemo : w.compiler.demo k = some (lockedIn, output)) :
    Attributed lockedIn output (w.moved k) ∧
      ∀ dpid moves clock, (movePacket (position lockedIn dpid) moves clock).sender.toNat =
        position lockedIn dpid := by
  have hinv := inv_of_runs h
  refine ⟨hinv.file k _ hdemo, ?_⟩
  intro dpid moves clock
  have hle := position_le lockedIn dpid
  have hshort := (hinv.distinct k _ hdemo).2
  show (UInt8.ofNat (position lockedIn dpid)).toNat = _
  rw [UInt8.toNat_ofNat']
  dsimp only at hshort
  omega

/-- Two players; one of them loses its connection and comes back before it moves. -/
def reconnecting : List Event :=
  [.newConnection localhost, .readyRead 0 (.hello 7 1 []) noon, .readyRead 0 (.gamePlayer armPlayer) noon,
    .newConnection localhost, .readyRead 1 (.hello 7 2 []) noon, .readyRead 1 (.gamePlayer armPlayer) noon,
    .readyRead 1 (.gamePlayerLoading [2, 1]) noon, .disconnected 0, .newConnection localhost,
    .readyRead 2 (.reconnect 7 1) noon, .readyRead 2 (.move [0xaa]) noon]

theorem moves_attributed_reconnecting : ∃ w, Runs Session.step Orderly (.new ⟨"taf-game-", ".tad"⟩ 0) w ∧
    w.moved 7 = [⟨1, [0xaa], noon⟩] ∧ position [2, 1] 1 = 2 ∧
    ∃ output, w.compiler.demo 7 = some ([2, 1], output) ∧ Attributed [2, 1] output (w.moved 7) := by
  have hrun : (run (guarded Session.step Orderly) (.new ⟨"taf-game-", ".tad"⟩ 0) reconnecting).map
      (fun w => (w.moved 7, (w.compiler.demo 7).map (·.1))) = some ([⟨1, [0xaa], noon⟩], some [2, 1]) := by
    decide +kernel
  obtain ⟨w, hw, hview⟩ := Option.map_eq_some_iff.mp hrun
  obtain ⟨hmoved, hlist⟩ := Prod.mk.inj hview
  obtain ⟨⟨lockedIn, output⟩, hdemo, rfl⟩ := Option.map_eq_some_iff.mp hlist
  have hruns := Runs.of_run_guarded reconnecting hw
  exact ⟨w, hruns, hmoved, rfl, output, hdemo, (moves_attributed hruns hdemo).1⟩

/-- A connection whose player has a number says that it is for another player now. -/
def renamed : List Event :=
  [.newConnection localhost, .readyRead 0 (.hello 7 1 []) noon, .readyRead 0 (.gamePlayer armPlayer) noon,
    .readyRead 0 (.gamePlayerLoading [1]) noon, .readyRead 0 (.hello 7 2 []) noon, .readyRead 0 (.move [0xaa]) noon]

/-- The move of a player that is not in the list is written under the number 1. -/
theorem renamed_keeps_number : ∃ w, Runs Session.step Protocol (.new ⟨"taf-game-", ".tad"⟩ 0) w ∧
    w.moved 7 = [⟨2, [0xaa], noon⟩] ∧ position [1] 2 = 0 ∧
    ∃ output, w.compiler.demo 7 = some ([1], output) ∧ ¬ Attributed [1] output (w.moved 7) := by
  have hrun : (run (guarded Session.step Protocol) (.new ⟨"taf-game-", ".tad"⟩ 0) renamed).map
      (fun w => (w.moved 7, (w.compiler.demo 7).map fun d => (d.1, d.2.drop (d.2.length - 6)))) =
      some ([⟨2, [0xaa], noon⟩], some ([1], [6, 0, 0, 0, 1, 0xaa])) := by
    decide +kernel
  obtain ⟨w, hw, hview⟩ := Option.map_eq_some_iff.mp hrun
  obtain ⟨hmoved, hlist⟩ := Prod.mk.inj hview
  obtain ⟨⟨lockedIn, output⟩, hdemo, hcontent⟩ := Option.map_eq_some_iff.mp hlist
  obtain ⟨rfl, htail⟩ := Prod.mk.inj hcontent
  refine ⟨w, Runs.of_run_guarded renamed hw, hmoved, rfl, output, hdemo, ?_⟩
  intro h
  obtain ⟨game, users, date, -, -, hout⟩ := h
  -- the last record would have the sender 0
  have hlast : output.drop (output.length - 6) = [6, 0, 0, 0, 0, 0xaa] := by
    have hframe : ([⟨2, [0xaa], noon⟩] : List Moved).flatMap (fun m =>
        TADemoWriter.frame (movePacket (position [1] m.dpid) m.moves m.clock).serialise) =
        [6, 0, 0, 0, 0, 0xaa] := by decide +kernel
    rw [hout, hmoved, hframe]
    apply List.drop_left'
    simp
  rw [hlast] at htail
  revert htail
  decide

end Session

end Gpgnet4TA.Tareplay.TaDemoCompiler
