import Gpgnet4TA.Lib.Machine
import Gpgnet4TA.Talaunch.LaunchClient

/-!
# The launch server (`LaunchServer.cpp`)

The server runs at most one game and tells its clients how the game fares. What the game's
DirectPlay session and its process answer is a part of the events. It shuts down when it has
not heard from a client for a while and no game runs.
-/

namespace Gpgnet4TA.Talaunch
open Gpgnet4TA.Lib

def TICK_RATE_MILLISEC : ℤ := 1000

/-- The exit code of a process that still runs. -/
def STILL_ACTIVE : ℕ := 259

structure JDPlay where
  guid : Bytes
  player : Bytes
  ipaddr : Bytes
  isHost : Bool

/-- What the calls of `launchGame` return. -/
structure LaunchAnswers where
  initialized : Bool
  searchOnce : Bool × Bool × Bool
  launch : Bool

/-- `joinIsDisabled` is not initialised; it is only read while there is a game, and a launch sets it.
The timeout and the counter are `int`s. -/
structure LaunchServer where
  keepAliveTimeout : ℤ
  jdPlay : Option JDPlay
  shutdownCounter : ℤ
  joinIsDisabled : Bool

/-- What the server tells its clients, and its signals. -/
inductive Signal where
  | notifyClients (m : StatusMessage)
  | gameFailedToLaunch (gameGuid : Bytes)
  | gameExitedWithError (exitCode : ℕ)
  | gameFileVersionMismatch (message : Bytes)
  | quit
  deriving DecidableEq

namespace LaunchServer

def new (keepAliveTimeout : ℤ) : LaunchServer :=
  ⟨(int32 (keepAliveTimeout * 1000)).tdiv TICK_RATE_MILLISEC, none, keepAliveTimeout, false⟩

/-- The text without line ends, split at its blanks. -/
def arguments (datas : Bytes) : List Bytes := (datas.filter fun b => b ≠ 0x0a ∧ b ≠ 0x0d).splitOn 0x20

def launchGame (s : LaunchServer) (answers : LaunchAnswers) (guid player ipaddr : Bytes) (asHost doSearch : Bool) :
    LaunchServer × List Signal :=
  if s.jdPlay.isSome then (s, [])
  else if !answers.initialized then (s, [.notifyClients .fail, .gameFailedToLaunch guid])
  else if !asHost && doSearch &&
      !(answers.searchOnce.1 || answers.searchOnce.2.1 || answers.searchOnce.2.2) then
    (s, [.notifyClients .fail, .gameFailedToLaunch guid])
  else if !answers.launch then (s, [.notifyClients .fail, .gameFailedToLaunch guid])
  else ({ s with jdPlay := some ⟨guid, player, ipaddr, asHost⟩, joinIsDisabled := false },
    [.notifyClients .running])

def isKeepalive (datas : Bytes) : Bool := (arguments datas).head? = some (ascii "/keepalive")

def onReadyReadTcp (s : LaunchServer) (datas : Bytes) (answers : LaunchAnswers) : LaunchServer × List Signal :=
  if isKeepalive datas then ({ s with shutdownCounter := s.keepAliveTimeout }, [])
  else match arguments datas with
    | [] => (s, [])
    | command :: args =>
      if command = ascii "/failversion" then
        ({ s with jdPlay := none },
          [.notifyClients .fail, .gameFileVersionMismatch ([0x20].intercalate args)])
      else match args with
        | guid :: player :: ipaddr :: _ =>
          if command = ascii "/host" then s.launchGame answers guid player ipaddr true false
          else if command = ascii "/join" then s.launchGame answers guid player ipaddr false false
          else if command = ascii "/searchjoin" then s.launchGame answers guid player ipaddr false true
          else (s, [])
        | _ => (s, [])

/-- The first half of `timerEvent`: `exitCode` is the process's, `joinDisabled` the session's flag. -/
def pollGame (s : LaunchServer) (exitCode : ℕ) (joinDisabled : Bool) : LaunchServer × List Signal :=
  match s.jdPlay with
  | none => (s, [])
  | some game =>
    if exitCode ≠ STILL_ACTIVE then
      ({ s with jdPlay := none },
        if exitCode = 0 then [.notifyClients .idle]
        else [.notifyClients (.failWith exitCode), .gameExitedWithError exitCode])
    else if game.isHost && !s.joinIsDisabled && joinDisabled then
      ({ s with joinIsDisabled := true }, [.notifyClients .launched])
    else (s, [])

def timerEvent (s : LaunchServer) (exitCode : ℕ) (joinDisabled : Bool) : LaunchServer × List Signal :=
  let (s, signals) := s.pollGame exitCode joinDisabled
  let s := if s.jdPlay.isNone ∨ exitCode ≠ STILL_ACTIVE then
    { s with shutdownCounter := int32 (s.shutdownCounter - 1) } else s
  (s, if s.shutdownCounter ≤ 0 then signals ++ [.quit] else signals)

inductive Event where
  | readyReadTcp (datas : Bytes) (answers : LaunchAnswers)
  | timerEvent (exitCode : ℕ) (joinDisabled : Bool)

def step (s : LaunchServer) : Event → Option (LaunchServer × List Signal)
  | .readyReadTcp datas answers => some (s.onReadyReadTcp datas answers)
  | .timerEvent exitCode joinDisabled => some (s.timerEvent exitCode joinDisabled)

/-! ### What the clients are told -/

/-- What can be known of the game from the messages about it. -/
inductive Phase where
  | off
  | battleroom
  | launched
  deriving DecidableEq

/-- A launch that fails is told while there is no game; all else is a change. -/
def Phase.tell : Phase → Signal → Option Phase
  | .off, .notifyClients .running => some .battleroom
  | .off, .notifyClients .fail => some .off
  | .battleroom, .notifyClients .launched => some .launched
  | .battleroom, .notifyClients .idle => some .off
  | .launched, .notifyClients .idle => some .off
  | .battleroom, .notifyClients .fail => some .off
  | .launched, .notifyClients .fail => some .off
  | .battleroom, .notifyClients (.failWith exitCode) => if exitCode = 0 then none else some .off
  | .launched, .notifyClients (.failWith exitCode) => if exitCode = 0 then none else some .off
  | _, .notifyClients _ => none
  | t, _ => some t

def phase (s : LaunchServer) : Phase :=
  match s.jdPlay with
  | none => .off
  | some _ => if s.joinIsDisabled then .launched else .battleroom

theorem phase_none {s : LaunchServer} (h : s.jdPlay = none) : s.phase = .off := by
  simp only [phase, h]

theorem phase_some {s : LaunchServer} {game : JDPlay} (h : s.jdPlay = some game) :
    s.phase = if s.joinIsDisabled then .launched else .battleroom := by
  simp only [phase, h]

theorem phase_off_iff (s : LaunchServer) : s.phase = .off ↔ s.jdPlay = none := by
  cases h : s.jdPlay with
  | none => simp [phase_none h]
  | some game =>
    rw [phase_some h]
    split <;> simp

theorem observe_launchGame (s : LaunchServer) (answers : LaunchAnswers) (guid player ipaddr : Bytes)
    (asHost doSearch : Bool) :
    observe Phase.tell s.phase (s.launchGame answers guid player ipaddr asHost doSearch).2 =
      some (s.launchGame answers guid player ipaddr asHost doSearch).1.phase := by
  cases h : s.jdPlay with
  | some game =>
    simp only [launchGame, h, Option.isSome_some, if_true]
    rfl
  | none =>
    have hoff := phase_none h
    have hfail : observe Phase.tell s.phase [.notifyClients .fail, .gameFailedToLaunch guid] = some s.phase := by
      rw [hoff]
      rfl
    simp only [launchGame, h, Option.isSome_none, Bool.false_eq_true, if_false]
    split
    · exact hfail
    split
    · exact hfail
    split
    · exact hfail
    · rw [hoff]
      rfl

theorem observe_onReadyReadTcp (s : LaunchServer) (datas : Bytes) (answers : LaunchAnswers) :
    observe Phase.tell s.phase (s.onReadyReadTcp datas answers).2 =
      some (s.onReadyReadTcp datas answers).1.phase := by
  unfold onReadyReadTcp
  split
  · rfl
  split
  · rfl
  rename_i command args _
  split
  · -- the game is given up, if there is one
    cases h : s.jdPlay with
    | none =>
      rw [phase_none h]
      rfl
    | some game =>
      rw [phase_some h]
      cases s.joinIsDisabled <;> rfl
  split
  · split
    · exact observe_launchGame ..
    split
    · exact observe_launchGame ..
    split
    · exact observe_launchGame ..
    · rfl
  · rfl

theorem observe_pollGame (s : LaunchServer) (exitCode : ℕ) (joinDisabled : Bool) :
    observe Phase.tell s.phase (s.pollGame exitCode joinDisabled).2 =
      some (s.pollGame exitCode joinDisabled).1.phase := by
  cases h : s.jdPlay with
  | none =>
    simp only [pollGame, h]
    rfl
  | some game =>
    have hphase := phase_some h
    simp only [pollGame, h]
    split
    · by_cases hzero : exitCode = 0
      · rw [if_pos hzero, hphase]
        cases s.joinIsDisabled <;> rfl
      · rw [if_neg hzero, hphase]
        cases s.joinIsDisabled <;> simp [observe, Phase.tell, hzero, phase]
    split
    · rename_i hlaunch
      have hjoin : s.joinIsDisabled = false := by
        simp only [Bool.and_eq_true, Bool.not_eq_true'] at hlaunch
        exact hlaunch.1.2
      rw [hphase, hjoin]
      simp [observe, Phase.tell, phase]
    · rfl

theorem observe_timerEvent (s : LaunchServer) (exitCode : ℕ) (joinDisabled : Bool) :
    observe Phase.tell s.phase (s.timerEvent exitCode joinDisabled).2 =
      some (s.timerEvent exitCode joinDisabled).1.phase := by
  have hpoll := observe_pollGame s exitCode joinDisabled
  have hsame : (s.timerEvent exitCode joinDisabled).1.phase = (s.pollGame exitCode joinDisabled).1.phase := by
    simp only [timerEvent]
    split <;> rfl
  rw [hsame]
  simp only [timerEvent]
  generalize s.pollGame exitCode joinDisabled = polled at hpoll ⊢
  have hquit : ∀ n : ℤ, observe Phase.tell s.phase (if n ≤ 0 then polled.2 ++ [.quit] else polled.2) =
      some polled.1.phase := by
    intro n
    split
    · rw [observe_append, hpoll]
      cases polled.1.phase <;> rfl
    · exact hpoll
  exact hquit _

/-- The messages alone say, at every moment, whether a game runs and whether it has been launched. -/
theorem told_phase {keepAliveTimeout : ℤ} {es : List Event} {s : LaunchServer} {signals : List Signal}
    (h : exec step (new keepAliveTimeout) es = some (s, signals)) :
    observe Phase.tell .off signals = some s.phase := by
  refine observe_exec phase (fun _ => True) ?_ es trivial h
  intro s e s' o _ hs
  refine ⟨trivial, ?_⟩
  cases e with
  | readyReadTcp datas answers =>
    have hobs := observe_onReadyReadTcp s datas answers
    rwa [Option.some.inj hs] at hobs
  | timerEvent exitCode joinDisabled =>
    have hobs := observe_timerEvent s exitCode joinDisabled
    rwa [Option.some.inj hs] at hobs

/-- What is told of the game is so at that moment. -/
structure Tells (r : LaunchServer × List Signal) : Prop where
  running : .notifyClients .running ∈ r.2 → r.1.jdPlay.isSome = true
  launched : .notifyClients .launched ∈ r.2 →
    r.1.joinIsDisabled = true ∧ ∃ game, r.1.jdPlay = some game ∧ game.isHost = true

theorem Tells.of_other {r : LaunchServer × List Signal} (hr : .notifyClients .running ∉ r.2)
    (hl : .notifyClients .launched ∉ r.2) : Tells r := ⟨fun h => absurd h hr, fun h => absurd h hl⟩

theorem tells_launchGame (s : LaunchServer) (answers : LaunchAnswers) (guid player ipaddr : Bytes)
    (asHost doSearch : Bool) : Tells (s.launchGame answers guid player ipaddr asHost doSearch) := by
  unfold launchGame
  split
  · exact .of_other nofun nofun
  split
  · exact .of_other (by simp) (by simp)
  split
  · exact .of_other (by simp) (by simp)
  split
  · exact .of_other (by simp) (by simp)
  · exact ⟨fun _ => rfl, by simp⟩

theorem tells_onReadyReadTcp (s : LaunchServer) (datas : Bytes) (answers : LaunchAnswers) :
    Tells (s.onReadyReadTcp datas answers) := by
  unfold onReadyReadTcp
  split
  · exact .of_other nofun nofun
  split
  · exact .of_other nofun nofun
  split
  · exact .of_other (by simp) (by simp)
  split
  · split
    · exact tells_launchGame ..
    split
    · exact tells_launchGame ..
    split
    · exact tells_launchGame ..
    · exact .of_other nofun nofun
  · exact .of_other nofun nofun

theorem tells_pollGame (s : LaunchServer) (exitCode : ℕ) (joinDisabled : Bool) :
    Tells (s.pollGame exitCode joinDisabled) := by
  cases h : s.jdPlay with
  | none =>
    simp only [pollGame, h]
    exact .of_other nofun nofun
  | some game =>
    simp only [pollGame, h]
    split
    · split
      · exact .of_other (by simp) (by simp)
      · exact .of_other (by simp) (by simp)
    split
    · rename_i hlaunch
      rw [Bool.and_eq_true, Bool.and_eq_true] at hlaunch
      exact ⟨by simp, fun _ => ⟨rfl, game, rfl, hlaunch.1.1⟩⟩
    · exact .of_other nofun nofun

theorem tells_timerEvent (s : LaunchServer) (exitCode : ℕ) (joinDisabled : Bool) :
    Tells (s.timerEvent exitCode joinDisabled) := by
  have hpoll := tells_pollGame s exitCode joinDisabled
  simp only [timerEvent]
  generalize s.pollGame exitCode joinDisabled = polled at hpoll ⊢
  have hmem : ∀ (n : ℤ) (m : StatusMessage), .notifyClients m ∈ (if n ≤ 0 then polled.2 ++ [.quit] else polled.2) →
      .notifyClients m ∈ polled.2 := by
    intro n m hm
    split at hm
    · simpa using hm
    · exact hm
  refine ⟨fun h => ?_, fun h => ?_⟩
  · have hsome := hpoll.running (hmem _ _ h)
    split
    · exact hsome
    · exact hsome
  · have hhosted := hpoll.launched (hmem _ _ h)
    split
    · exact hhosted
    · exact hhosted

theorem tells_step {s : LaunchServer} {e : Event} {r : LaunchServer × List Signal} (h : s.step e = some r) :
    Tells r := by
  cases e with
  | readyReadTcp datas answers =>
    obtain rfl := Option.some.inj h
    exact tells_onReadyReadTcp s datas answers
  | timerEvent exitCode joinDisabled =>
    obtain rfl := Option.some.inj h
    exact tells_timerEvent s exitCode joinDisabled

/-- What has been told was so at some moment of the run. -/
theorem told_at {keepAliveTimeout : ℤ} {es : List Event} {s : LaunchServer} {signals : List Signal} {m : StatusMessage}
    (h : exec step (new keepAliveTimeout) es = some (s, signals)) (hm : .notifyClients m ∈ signals) :
    ∃ before after s' signals' told, es = before ++ after ∧
      exec step (new keepAliveTimeout) before = some (s', signals') ∧ .notifyClients m ∈ told ∧ Tells (s', told) := by
  obtain ⟨before, e, after, t, os, s', told, rfl, hbefore, hstep, hin⟩ := exec_mem h hm
  exact ⟨before ++ [e], after, s', os ++ told, told, by simp, exec_concat hbefore hstep, hin, tells_step hstep⟩

/-! ### A client that reads each message by itself -/

def notifications (signals : List Signal) : List StatusMessage := signals.filterMap fun
  | .notifyClients m => some m
  | _ => none

theorem onReadyReadTcp_notifyClients (st : State) (m : StatusMessage) :
    Talaunch.onReadyReadTcp st (notifyClients m) = m.state := by
  have hwhole : notifyClients m ++ [] = (written [m]).drop 0 := by simp [written]
  have hread := onReadyReadTcp_read (s := st) hwhole
  have hlen : m.word.length ≤ (notifyClients m).length := by
    rw [notifyClients, List.length_append]
    obtain h | ⟨code, h, -⟩ := text_cases m
    · rw [h]
      omega
    · rw [h, List.length_append]
      omega
  have hheard : heardAt (starts 0 [m]) 0 (notifyClients m).length = some m := by
    simp [heardAt, starts, hlen]
  rw [hread, hheard]
  rfl

/-- What the client takes the game for, and what is told of it, agree. -/
structure Agrees (t : Phase) (st : State) : Prop where
  running : isApplicationRunning st = true ↔ t ≠ .off
  launched : isGameLaunched st = true ↔ t = .launched

theorem Agrees.tell {t t' : Phase} {signal : Signal} {st : State} (ha : Agrees t st)
    (h : t.tell signal = some t') :
    Agrees t' ((notifications [signal]).foldl (fun st m => Talaunch.onReadyReadTcp st (notifyClients m)) st) := by
  cases signal with
  | notifyClients m =>
    have hst : (notifications [.notifyClients m]).foldl
        (fun st m => Talaunch.onReadyReadTcp st (notifyClients m)) st = m.state :=
      onReadyReadTcp_notifyClients st m
    rw [hst]
    cases t <;> cases m <;> simp only [Phase.tell, reduceCtorEq, Option.some.injEq, Option.ite_none_left_eq_some] at h
    all_goals
      first
        | obtain rfl := h
        | obtain ⟨-, rfl⟩ := h
      constructor <;> simp [isApplicationRunning, isGameLaunched, StatusMessage.state]
  | gameFailedToLaunch gameGuid => cases t <;> cases h <;> exact ha
  | gameExitedWithError exitCode => cases t <;> cases h <;> exact ha
  | gameFileVersionMismatch message => cases t <;> cases h <;> exact ha
  | quit => cases t <;> cases h <;> exact ha

theorem Agrees.observe {t t' : Phase} {signals : List Signal} {st : State} (ha : Agrees t st)
    (h : observe Phase.tell t signals = some t') :
    Agrees t' ((notifications signals).foldl (fun st m => Talaunch.onReadyReadTcp st (notifyClients m)) st) := by
  induction signals generalizing t st with
  | nil =>
    cases h
    exact ha
  | cons signal signals ih =>
    obtain ⟨t1, htell, hrest⟩ := Option.bind_eq_some_iff.mp h
    have hsplit : notifications (signal :: signals) = notifications [signal] ++ notifications signals :=
      List.filterMap_append (l := [signal])
    rw [hsplit, List.foldl_append]
    exact ih (ha.tell htell) hrest

/-- A client that has read the messages one by one knows whether the server's game runs, and
whether it has been launched. -/
theorem client_agrees {keepAliveTimeout : ℤ} {es : List Event} {s : LaunchServer} {signals : List Signal}
    (h : exec step (new keepAliveTimeout) es = some (s, signals)) {st : State}
    (hst : st = ((notifications signals).map notifyClients).foldl Talaunch.onReadyReadTcp .IDLE) :
    (isApplicationRunning st = true ↔ s.jdPlay.isSome = true) ∧
      (isGameLaunched st = true ↔ s.jdPlay.isSome = true ∧ s.joinIsDisabled = true) := by
  have ha : Agrees .off .IDLE := ⟨by decide, by decide⟩
  have hall := ha.observe (told_phase h)
  rw [List.foldl_map] at hst
  rw [← hst] at hall
  refine ⟨hall.running.trans ?_, hall.launched.trans ?_⟩
  · rw [ne_eq, phase_off_iff, Option.isSome_iff_ne_none]
  · cases hgame : s.jdPlay with
    | none => simp [phase_none hgame]
    | some game => simp [phase_some hgame]

theorem client_agrees_hosted :
    let signals : List Signal := [.notifyClients .running, .notifyClients .launched]
    let st := ((notifications signals).map notifyClients).foldl Talaunch.onReadyReadTcp .IDLE
    (isApplicationRunning st = true ↔ true = true) ∧ (isGameLaunched st = true ↔ true = true ∧ true = true) :=
  have h : exec step (new 10)
      [.readyReadTcp (ascii "/host g p a") ⟨true, (false, false, false), true⟩, .timerEvent STILL_ACTIVE true] =
        some (⟨10, some ⟨ascii "g", ascii "p", ascii "a", true⟩, 10, true⟩,
          [.notifyClients .running, .notifyClients .launched]) := by rfl
  client_agrees h rfl

/-! ### The shutdown -/

/-- The ticks without a game since the last message that keeps the server alive. -/
def idleTicks : LaunchServer → ℕ → List Event → ℕ
  | _, n, [] => n
  | s, n, .readyReadTcp datas answers :: es =>
    idleTicks (s.onReadyReadTcp datas answers).1 (if isKeepalive datas then 0 else n) es
  | s, n, .timerEvent exitCode joinDisabled :: es =>
    idleTicks (s.timerEvent exitCode joinDisabled).1
      (if (s.timerEvent exitCode joinDisabled).1.jdPlay.isNone then n + 1 else n) es

theorem launchGame_frame (s : LaunchServer) (answers : LaunchAnswers) (guid player ipaddr : Bytes)
    (asHost doSearch : Bool) :
    (s.launchGame answers guid player ipaddr asHost doSearch).1.shutdownCounter = s.shutdownCounter ∧
      (s.launchGame answers guid player ipaddr asHost doSearch).1.keepAliveTimeout = s.keepAliveTimeout ∧
      .quit ∉ (s.launchGame answers guid player ipaddr asHost doSearch).2 := by
  unfold launchGame
  split
  · simp
  split
  · simp
  split
  · simp
  split
  · simp
  · simp

theorem onReadyReadTcp_counter (s : LaunchServer) (datas : Bytes) (answers : LaunchAnswers) :
    (s.onReadyReadTcp datas answers).1.shutdownCounter =
        (if isKeepalive datas then s.keepAliveTimeout else s.shutdownCounter) ∧
      (s.onReadyReadTcp datas answers).1.keepAliveTimeout = s.keepAliveTimeout ∧
      .quit ∉ (s.onReadyReadTcp datas answers).2 := by
  unfold onReadyReadTcp
  split
  · simp
  split
  · simp
  split
  · simp
  split
  · split
    · exact launchGame_frame ..
    split
    · exact launchGame_frame ..
    split
    · exact launchGame_frame ..
    · simp
  · simp

theorem pollGame_frame (s : LaunchServer) (exitCode : ℕ) (joinDisabled : Bool) :
    (s.pollGame exitCode joinDisabled).1.shutdownCounter = s.shutdownCounter ∧
      (s.pollGame exitCode joinDisabled).1.keepAliveTimeout = s.keepAliveTimeout ∧
      .quit ∉ (s.pollGame exitCode joinDisabled).2 ∧
      (exitCode ≠ STILL_ACTIVE → (s.pollGame exitCode joinDisabled).1.jdPlay.isNone = true) := by
  unfold pollGame
  split
  · rename_i h
    simp [h]
  split
  · split <;> simp
  split
  · rename_i hactive _
    exact ⟨rfl, rfl, by simp, fun h => absurd h hactive⟩
  · rename_i hactive _
    exact ⟨rfl, rfl, by simp, fun h => absurd h hactive⟩

theorem timerEvent_counter (s : LaunchServer) (exitCode : ℕ) (joinDisabled : Bool) :
    (s.timerEvent exitCode joinDisabled).1.shutdownCounter =
        (if (s.timerEvent exitCode joinDisabled).1.jdPlay.isNone then int32 (s.shutdownCounter - 1)
        else s.shutdownCounter) ∧
      (s.timerEvent exitCode joinDisabled).1.keepAliveTimeout = s.keepAliveTimeout ∧
      (.quit ∈ (s.timerEvent exitCode joinDisabled).2 ↔
        (s.timerEvent exitCode joinDisabled).1.shutdownCounter ≤ 0) := by
  obtain ⟨hcounter, htimeout, hquiet, hexit⟩ := pollGame_frame s exitCode joinDisabled
  have hquit : ∀ n : ℤ, .quit ∈ (if n ≤ 0 then (s.pollGame exitCode joinDisabled).2 ++ [.quit]
      else (s.pollGame exitCode joinDisabled).2) ↔ n ≤ 0 := by
    intro n
    split
    · simp [*]
    · simp [*]
  simp only [timerEvent]
  by_cases hidle : (s.pollGame exitCode joinDisabled).1.jdPlay.isNone = true ∨ exitCode ≠ STILL_ACTIVE
  · have hnone : (s.pollGame exitCode joinDisabled).1.jdPlay.isNone = true := hidle.elim id hexit
    simp only [if_pos hidle, if_pos hnone]
    exact ⟨by rw [hcounter], htimeout, hquit _⟩
  · have hsome : ¬ (s.pollGame exitCode joinDisabled).1.jdPlay.isNone = true := fun h => hidle (Or.inl h)
    simp only [if_neg hidle, if_neg hsome]
    exact ⟨hcounter, htimeout, hquit _⟩

theorem int32_sub_one (x : ℤ) : int32 (int32 x - 1) = int32 (x - 1) := Int.bmod_sub_bmod

theorem shutdownCounter_run {es : List Event} {s s' : LaunchServer} {signals : List Signal} {n : ℕ}
    (h : exec step s es = some (s', signals)) (hn : s.shutdownCounter = int32 (s.keepAliveTimeout - n))
    (hfits : int32 s.keepAliveTimeout = s.keepAliveTimeout) :
    s'.shutdownCounter = int32 (s.keepAliveTimeout - idleTicks s n es) := by
  induction es generalizing s n signals with
  | nil =>
    cases h
    exact hn
  | cons e es ih =>
    obtain ⟨t, o, o', hstep, hrest, -⟩ := exec_cons_some h
    cases e with
    | readyReadTcp datas answers =>
      obtain ⟨hcounter, htimeout, -⟩ := onReadyReadTcp_counter s datas answers
      rw [Option.some.inj hstep] at hcounter htimeout
      have hcount : t.shutdownCounter = int32 (t.keepAliveTimeout - (if isKeepalive datas then 0 else n : ℕ)) := by
        rw [hcounter, htimeout]
        split
        · rw [Nat.cast_zero, sub_zero, hfits]
        · exact hn
      rw [ih hrest hcount (by rw [htimeout]; exact hfits), htimeout, idleTicks, Option.some.inj hstep]
    | timerEvent exitCode joinDisabled =>
      obtain ⟨hcounter, htimeout, -⟩ := timerEvent_counter s exitCode joinDisabled
      rw [Option.some.inj hstep] at hcounter htimeout
      have hcount : t.shutdownCounter = int32 (t.keepAliveTimeout - (if t.jdPlay.isNone then n + 1 else n : ℕ)) := by
        rw [hcounter, htimeout]
        split
        · rw [hn, int32_sub_one, Nat.cast_succ, sub_sub]
        · exact hn
      rw [ih hrest hcount (by rw [htimeout]; exact hfits), htimeout, idleTicks, Option.some.inj hstep]

/-- The product with 1000 fits an `int`. -/
theorem keepAliveTimeout_new {keepAliveTimeout : ℤ} (hpos : 0 < keepAliveTimeout) (hfits : keepAliveTimeout ≤ 2147483) :
    (new keepAliveTimeout).keepAliveTimeout = keepAliveTimeout := by
  have hproduct : int32 (keepAliveTimeout * 1000) = keepAliveTimeout * 1000 := int32_eq (by omega) (by omega)
  show (int32 (keepAliveTimeout * 1000)).tdiv 1000 = keepAliveTimeout
  rw [hproduct]
  exact Int.mul_tdiv_cancel _ (by norm_num)

theorem counter_pos {keepAliveTimeout : ℤ} (hpos : 0 < keepAliveTimeout) (hfits : keepAliveTimeout ≤ 2147483)
    {es : List Event} {s : LaunchServer} {signals : List Signal}
    (h : exec step (new keepAliveTimeout) es = some (s, signals)) (hquiet : .quit ∉ signals) :
    0 < s.shutdownCounter := by
  have hnew := keepAliveTimeout_new hpos hfits
  have hall := exec_invariant (P := fun _ signals s => 0 < s.keepAliveTimeout ∧
      (.quit ∉ signals → 0 < s.shutdownCounter)) (fun _ os s e s' o hs hstep => by
    cases e with
    | readyReadTcp datas answers =>
      obtain ⟨hcounter, htimeout, -⟩ := onReadyReadTcp_counter s datas answers
      rw [Option.some.inj hstep] at hcounter htimeout
      refine ⟨by rw [htimeout]; exact hs.1, fun hq => ?_⟩
      rw [hcounter]
      split
      · exact hs.1
      · exact hs.2 fun hmem => hq (List.mem_append_left _ hmem)
    | timerEvent exitCode joinDisabled =>
      obtain ⟨-, htimeout, hquit⟩ := timerEvent_counter s exitCode joinDisabled
      rw [Option.some.inj hstep] at htimeout hquit
      refine ⟨by rw [htimeout]; exact hs.1, fun hq => ?_⟩
      have hlate : ¬ s'.shutdownCounter ≤ 0 := fun hle => hq (List.mem_append_right _ (hquit.mpr hle))
      omega)
    es [] [] (s := new keepAliveTimeout) ⟨by rw [hnew]; exact hpos, fun _ => hpos⟩ h
  exact hall.2 hquiet

/-- The server quits at a tick exactly if enough ticks without a game have gone by since it was
last kept alive (the counter does not wrap before 2 ^ 31 of them), and, the first time, never while a
game runs. -/
theorem quits_iff {keepAliveTimeout : ℤ} (hpos : 0 < keepAliveTimeout) (hfits : keepAliveTimeout ≤ 2147483)
    {es : List Event} {s : LaunchServer} {signals : List Signal}
    (h : exec step (new keepAliveTimeout) es = some (s, signals)) (exitCode : ℕ) (joinDisabled : Bool) :
    (idleTicks (new keepAliveTimeout) 0 (es ++ [.timerEvent exitCode joinDisabled]) ≤ 2 ^ 31 →
        (.quit ∈ (s.timerEvent exitCode joinDisabled).2 ↔
          keepAliveTimeout ≤ idleTicks (new keepAliveTimeout) 0 (es ++ [.timerEvent exitCode joinDisabled]))) ∧
      (.quit ∉ signals → .quit ∈ (s.timerEvent exitCode joinDisabled).2 →
        (s.timerEvent exitCode joinDisabled).1.jdPlay = none) := by
  obtain ⟨hcounter, -, hquit⟩ := timerEvent_counter s exitCode joinDisabled
  have hnew := keepAliveTimeout_new hpos hfits
  have hint : int32 keepAliveTimeout = keepAliveTimeout := int32_eq (by omega) (by omega)
  constructor
  · intro hfew
    have hlast : exec step (new keepAliveTimeout) (es ++ [.timerEvent exitCode joinDisabled]) =
        some ((s.timerEvent exitCode joinDisabled).1, signals ++ (s.timerEvent exitCode joinDisabled).2) :=
      exec_concat h rfl
    have hrun := shutdownCounter_run (n := 0) hlast
      (by rw [hnew, Nat.cast_zero, sub_zero, hint]; rfl) (by rw [hnew, hint])
    rw [hnew, int32_eq (by omega) (by omega)] at hrun
    rw [hquit, hrun]
    omega
  · intro hquiet hq
    have hbefore := counter_pos hpos hfits h hquiet
    rw [hquit, hcounter] at hq
    split at hq
    · rename_i hnone
      exact Option.isNone_iff_eq_none.mp hnone
    · omega

/-- The second tick after the server was kept alive. -/
theorem quits_iff_idle : ∃ s signals,
    exec step (new 2) [.timerEvent 0 false, .readyReadTcp (ascii "/keepalive") ⟨true, (false, false, false), true⟩,
      .timerEvent 0 false] = some (s, signals) ∧ .quit ∈ (s.timerEvent 0 false).2 ∧
    (s.timerEvent 0 false).1.jdPlay = none := by
  have hrun : exec step (new 2) [.timerEvent 0 false,
      .readyReadTcp (ascii "/keepalive") ⟨true, (false, false, false), true⟩, .timerEvent 0 false] =
        some (⟨2, none, 1, false⟩, []) := by
    rfl
  obtain ⟨hiff, hnone⟩ := quits_iff (by norm_num) (by norm_num) hrun 0 false
  have hquit := (hiff (by decide)).mpr (by decide)
  exact ⟨_, _, hrun, hquit, hnone List.not_mem_nil hquit⟩

end LaunchServer

end Gpgnet4TA.Talaunch
