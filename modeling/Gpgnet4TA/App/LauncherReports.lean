import Gpgnet4TA.App.GpgNetGameLauncher

/-!
# What the launcher reports

GPGNet is told of the battleroom, of the launch and of the end at most once each and in this
order. Nothing is written to the launch server or to a file once the game runs.
-/

namespace Gpgnet4TA.App
open Gpgnet4TA.Lib Gpgnet4TA.Talaunch

namespace GpgNetGameLauncher

/-- What can be known of the game from the reports. -/
inductive Phase where
  | lobby
  | starting
  | battleroom
  | launching
  | ending
  | over
  deriving DecidableEq

/-- The start is told twice, to GPGNet and by a signal, and so is the end. -/
def Phase.tell (t : Phase) : Output → Option Phase
  | .sendGameState _ substate =>
    if substate = "Staging" then some t
    else if substate = "Battleroom" then if t = .lobby then some .starting else none
    else if substate = "Launching" then if t = .battleroom then some .launching else none
    else none
  | .applicationStarted => if t = .starting then some .battleroom else none
  | .sendGameEnded => if t = .battleroom ∨ t = .launching then some .ending else none
  | .applicationTerminated => if t = .ending then some .over else none
  | .sendGameOption key _ => if key = "Slots" ∨ key = "MapDetails" ∨ t = .lobby then some t else none
  | .launchClient (.write _) => if t = .lobby then some t else none
  | .writeFile _ _ => if t = .lobby then some t else none
  | .copyFile _ => if t = .lobby then some t else none
  | .launchClient (.readAll _) => some t
  | .sendPlayerOption _ _ _ => some t
  | .quit => some t

def phase (s : GpgNetGameLauncher) : Phase :=
  if !s.alreadyStarted then .lobby
  else if !s.pollStillActiveTimer then .over
  else if s.alreadyLaunched then .launching
  else .battleroom

/-- Before the start nothing is polled and nothing is launched. -/
def Idle (s : GpgNetGameLauncher) : Prop :=
  s.alreadyStarted = false → s.pollStillActiveTimer = false ∧ s.alreadyLaunched = false

theorem idle_new (settings : Settings) (c : LaunchClient) (id : ℤ) (verify : Bool) :
    (new settings c id verify).Idle := fun _ => ⟨rfl, rfl⟩

theorem phase_lobby {s : GpgNetGameLauncher} (h : s.alreadyStarted = false) : s.phase = .lobby := by
  simp [phase, h]

theorem observe_aside {outputs : List Output} (h : ∀ o ∈ outputs, o.isAside = true) :
    observe Phase.tell .lobby outputs = some .lobby := by
  induction outputs with
  | nil => rfl
  | cons o outputs ih =>
    have hfirst : Phase.tell .lobby o = some .lobby := by
      have haside := h o List.mem_cons_self
      cases o with
      | launchClient transfer => cases transfer <;> rfl
      | writeFile name text => rfl
      | copyFile target => rfl
      | sendGameState state substate => cases haside
      | sendPlayerOption playerId key value => cases haside
      | sendGameOption key value => cases haside
      | sendGameEnded => cases haside
      | applicationStarted => cases haside
      | applicationTerminated => cases haside
      | quit => cases haside
    have hrest := ih fun o ho => h o (List.mem_cons_of_mem _ ho)
    simp only [observe, List.foldlM_cons, hfirst]
    exact hrest

/-- A handler's result is what an observer takes it for. -/
def Reports (s : GpgNetGameLauncher) (r : GpgNetGameLauncher × List Output) : Prop :=
  r.1.Idle ∧ observe Phase.tell s.phase r.2 = some r.1.phase

theorem Reports.trans {s : GpgNetGameLauncher} {r r' : GpgNetGameLauncher × List Output} (h : s.Reports r)
    (h' : r.1.Reports r') : s.Reports (r'.1, r.2 ++ r'.2) := by
  refine ⟨h'.1, ?_⟩
  rw [observe_append, h.2, Option.bind_some]
  exact h'.2

/-- Only these members say what has been reported. -/
def Unreported (s s' : GpgNetGameLauncher) : Prop :=
  s'.alreadyStarted = s.alreadyStarted ∧ s'.pollStillActiveTimer = s.pollStillActiveTimer ∧
    s'.alreadyLaunched = s.alreadyLaunched

theorem Unreported.reports {s s' : GpgNetGameLauncher} (h : s.Unreported s') (hs : s.Idle) : s.Reports (s', []) := by
  obtain ⟨h1, h2, h3⟩ := h
  have hphase : s'.phase = s.phase := by simp only [phase, h1, h2, h3]
  refine ⟨fun h => ?_, by rw [hphase]; rfl⟩
  rw [h1] at h
  rw [h2, h3]
  exact hs h

theorem Started.reports {s s' : GpgNetGameLauncher} {outputs : List Output} (h : Started s s' outputs)
    (hs : s.Idle) : s.Reports (s', outputs) := by
  cases h with
  | ignored h => exact Unreported.reports ⟨rfl, rfl, rfl⟩ hs
  | deferred h hr => exact Unreported.reports ⟨rfl, rfl, rfl⟩ hs
  | failed launchClient alreadyLaunched outputs h hr hl ho =>
    have hnot : alreadyLaunched = false := by
      cases hlaunched : alreadyLaunched with
      | false => rfl
      | true =>
        rw [← hl hlaunched]
        exact (hs h).2
    refine ⟨fun _ => ⟨(hs h).1, hnot⟩, ?_⟩
    have hafter : phase { s with launchClient := launchClient, alreadyLaunched := alreadyLaunched } = .lobby :=
      phase_lobby h
    rw [phase_lobby h]
    simp only [hafter]
    exact observe_aside ho
  | started launchClient outputs h hr hc ho =>
    refine ⟨nofun, ?_⟩
    rw [phase_lobby h, observe_append, observe_aside ho]
    rfl

theorem reports_onStartApplication {s : GpgNetGameLauncher} (hs : s.Idle) (a : Attempt) :
    s.Reports (s.onStartApplication a) := (started s a).reports hs

theorem reports_pollJdplayStillActive {s : GpgNetGameLauncher} (hs : s.Idle) (ht : s.pollStillActiveTimer = true) :
    s.Reports s.pollJdplayStillActive := by
  have hstarted : s.alreadyStarted = true := by
    cases h : s.alreadyStarted with
    | true => rfl
    | false => rw [(hs h).1] at ht; cases ht
  have hphase : s.phase = if s.alreadyLaunched then .launching else .battleroom := by simp [phase, hstarted, ht]
  unfold pollJdplayStillActive
  split
  · refine ⟨fun h => ?_, ?_⟩
    · rw [hstarted] at h
      cases h
    · rw [hphase]
      cases s.alreadyLaunched <;> simp [observe, Phase.tell, phase, hstarted]
  split
  · rename_i hlaunch
    have hnot : s.alreadyLaunched = false := by
      simp only [Bool.and_eq_true, Bool.not_eq_true'] at hlaunch
      exact hlaunch.1.2
    refine ⟨fun h => ?_, ?_⟩
    · rw [hstarted] at h
      cases h
    · rw [hphase, hnot]
      simp [observe, Phase.tell, phase, hstarted, ht]
  · exact Unreported.reports ⟨rfl, rfl, rfl⟩ hs

theorem reports_hostOption {s : GpgNetGameLauncher} (hs : s.Idle) (key : String) (value : QString) :
    s.Reports (s, s.hostOption key value) := by
  unfold hostOption
  split
  · exact Unreported.reports ⟨rfl, rfl, rfl⟩ hs
  split
  · exact Unreported.reports ⟨rfl, rfl, rfl⟩ hs
  · rename_i h
    have hlobby := phase_lobby (Bool.eq_false_iff.mpr h)
    refine ⟨hs, ?_⟩
    rw [hlobby]
    simp [observe, Phase.tell]

theorem Unreported.then {s s' : GpgNetGameLauncher} {r : GpgNetGameLauncher × List Output} (h : s.Unreported s')
    (hs : s.Idle) (hr : s'.Reports r) : s.Reports r := (h.reports hs).trans hr

theorem Reports.after {s : GpgNetGameLauncher} {r : GpgNetGameLauncher × List Output} {s' : GpgNetGameLauncher}
    (h : s.Reports r) (hu : r.1.Unreported s') : s.Reports (s', r.2) := by
  have hall := h.trans (hu.reports h.1)
  rwa [List.append_nil] at hall

/-- What is sent in every phase. -/
theorem Reports.any {s : GpgNetGameLauncher} (hs : s.Idle) {outputs : List Output}
    (h : ∀ o ∈ outputs, ∀ t : Phase, t.tell o = some t) : s.Reports (s, outputs) := by
  refine ⟨hs, ?_⟩
  induction outputs with
  | nil => rfl
  | cons o outputs ih =>
    simp only [observe, List.foldlM_cons, h o List.mem_cons_self s.phase]
    exact ih fun o ho => h o (List.mem_cons_of_mem _ ho)

theorem reports_deferredStart {s : GpgNetGameLauncher} (hs : s.Idle) (a : Attempt) :
    s.Reports (s.deferredStart a) := by
  unfold deferredStart
  split
  · exact reports_onStartApplication hs a
  · exact Unreported.reports ⟨rfl, rfl, rfl⟩ hs

theorem reports_onHostGame {s : GpgNetGameLauncher} (hs : s.Idle) (mapName mapDetails : QString) (a : Attempt) :
    s.Reports (s.onHostGame mapName mapDetails a) := by
  have hstart := reports_deferredStart (s := s.setUpHost mapName) hs a
  have hoptions : ∀ o ∈ [.sendPlayerOption (number ((s.setUpHost mapName).deferredStart a).1.thisPlayerId)
        "Team".toList 1, Output.sendGameOption "Slots" (.int ((s.setUpHost mapName).deferredStart a).1.playerLimit),
      .sendGameOption "MapDetails" (.text mapDetails)], ∀ t : Phase, t.tell o = some t := by
    intro o ho t
    simp only [List.mem_cons, List.not_mem_nil, or_false] at ho
    rcases ho with rfl | rfl | rfl
    · rfl
    · simp [Phase.tell]
    · simp [Phase.tell]
  have hall := hstart.trans (Reports.any hstart.1 hoptions)
  have hsetUp : s.Unreported (s.setUpHost mapName) := ⟨rfl, rfl, rfl⟩
  exact hsetUp.then hs (hall.after ⟨rfl, rfl, rfl⟩)

theorem reports_onJoinGame {s : GpgNetGameLauncher} (hs : s.Idle) (a : Attempt) : s.Reports (s.onJoinGame a) := by
  have hstart := reports_deferredStart (s := s.setUpJoin) hs a
  have hteam : ∀ o ∈ [Output.sendPlayerOption (number (s.setUpJoin.deferredStart a).1.thisPlayerId) "Team".toList 1],
      ∀ t : Phase, t.tell o = some t := by
    intro o ho t
    rw [List.mem_singleton.mp ho]
    rfl
  have hsetUp : s.Unreported s.setUpJoin := ⟨rfl, rfl, rfl⟩
  exact hsetUp.then hs (hstart.trans (Reports.any hstart.1 hteam))

theorem reports_hostGame {s : GpgNetGameLauncher} (hs : s.Idle) (mapName mapDetails : QString) (a a' : Attempt) :
    s.Reports (s.hostGame mapName mapDetails a a') := by
  have hhost := reports_onHostGame hs mapName mapDetails a
  simp only [hostGame]
  split
  · exact hhost.trans (reports_onStartApplication hhost.1 a')
  · exact hhost

theorem reports_joinGame {s : GpgNetGameLauncher} (hs : s.Idle) (a a' : Attempt) : s.Reports (s.joinGame a a') := by
  have hjoin := reports_onJoinGame hs a
  simp only [joinGame]
  split
  · exact hjoin.trans (reports_onStartApplication hjoin.1 a')
  · exact hjoin

theorem reports_onQuitMessage {s : GpgNetGameLauncher} (hs : s.Idle) : s.Reports s.onQuitMessage := by
  have hquit : ∀ o ∈ [Output.quit], ∀ t : Phase, t.tell o = some t := by
    intro o ho t
    rw [List.mem_singleton.mp ho]
    rfl
  unfold onQuitMessage
  split
  · exact Reports.any hs hquit
  simp only []
  split
  · exact (Reports.any hs hquit).after ⟨rfl, rfl, rfl⟩
  · exact Unreported.reports ⟨rfl, rfl, rfl⟩ hs

theorem reports_onMapMessage {s : GpgNetGameLauncher} (hs : s.Idle) (mapDetails : QString) :
    s.Reports (s.onMapMessage mapDetails) := by
  unfold onMapMessage
  split
  · exact Unreported.reports ⟨rfl, rfl, rfl⟩ hs
  split
  · exact Unreported.reports ⟨rfl, rfl, rfl⟩ hs
  · exact (reports_hostOption hs "MapDetails" mapDetails).after ⟨rfl, rfl, rfl⟩

theorem reports_onExtendedMessage {s : GpgNetGameLauncher} (hs : s.Idle) (msg : QString) (a : Attempt) :
    s.Reports (s.onExtendedMessage msg a) := by
  have hsame : ∀ s', s.Unreported s' → s.Reports (s', []) := fun s' h => h.reports hs
  unfold onExtendedMessage
  split
  · split
    · exact reports_onStartApplication hs a
    · exact Unreported.then ⟨rfl, rfl, rfl⟩ hs (reports_onStartApplication (s := { s with randomPositions := false }) hs a)
  split
  · exact reports_onMapMessage hs _
  split
  · exact hsame _ ⟨rfl, rfl, rfl⟩
  split
  · exact hsame _ ⟨rfl, rfl, rfl⟩
  split
  · exact reports_hostOption hs _ _
  split
  · exact reports_hostOption hs _ _
  split
  · exact reports_hostOption hs _ _
  split
  · exact reports_onQuitMessage hs
  · exact hsame _ ⟨rfl, rfl, rfl⟩

theorem reports_step {s : GpgNetGameLauncher} (hs : s.Idle) {e : Event} {r : GpgNetGameLauncher × List Output}
    (h : s.step e = some r) : s.Reports r := by
  cases e with
  | createLobby playerName playerId =>
    obtain rfl := Option.some.inj h
    refine (Reports.any hs ?_).after ⟨rfl, rfl, rfl⟩
    intro o ho t
    rw [List.mem_singleton.mp ho]
    rfl
  | hostGame mapName mapDetails a a' =>
    obtain rfl := Option.some.inj h
    exact reports_hostGame hs mapName mapDetails a a'
  | joinGame a a' =>
    obtain rfl := Option.some.inj h
    exact reports_joinGame hs a a'
  | extendedMessage msg a =>
    obtain rfl := Option.some.inj h
    exact reports_onExtendedMessage hs msg a
  | pollJdplayStillActive =>
    simp only [step] at h
    split at h
    · rename_i ht
      obtain rfl := Option.some.inj h
      exact reports_pollJdplayStillActive hs ht
    · cases h
  | resetQuitCount =>
    simp only [step] at h
    split at h
    · obtain rfl := Option.some.inj h
      exact Unreported.reports ⟨rfl, rfl, rfl⟩ hs
    · cases h
  | readyReadTcp data =>
    obtain rfl := Option.some.inj h
    refine (Reports.any hs ?_).after ⟨rfl, rfl, rfl⟩
    intro o ho t
    rw [List.mem_singleton.mp ho]
    rfl
  | unconnected =>
    obtain rfl := Option.some.inj h
    exact Unreported.reports ⟨rfl, rfl, rfl⟩ hs

/-- In every run the reports follow the phases of the game, and they say at every moment which one it is. -/
theorem reported_phase {settings : Settings} {c : LaunchClient} {id : ℤ} {verify : Bool} {es : List Event}
    {s : GpgNetGameLauncher} {outputs : List Output} (h : exec step (new settings c id verify) es = some (s, outputs)) :
    observe Phase.tell .lobby outputs = some s.phase :=
  observe_exec phase Idle (fun _ _ _ _ hs hstep => reports_step hs hstep) es (idle_new settings c id verify) h

theorem reported_phase_launched :
    let a : Attempt := ⟨none, false, true, fun _ => none, ⟨false, none⟩, ⟨true, some (notifyClients .running)⟩⟩
    ∃ s outputs, exec step (new ⟨[], [], [], 10, false, 1000, [], false⟩ (LaunchClient.new true) 7 false)
        [.createLobby [] 7, .hostGame [] [] a a, .extendedMessage "/launch".toList a,
          .readyReadTcp (notifyClients .launched), .pollJdplayStillActive] = some (s, outputs) ∧
      observe Phase.tell .lobby outputs = some s.phase := by
  intro a
  have hrun : ∃ s outputs, exec step (new ⟨[], [], [], 10, false, 1000, [], false⟩ (LaunchClient.new true) 7 false)
      [.createLobby [] 7, .hostGame [] [] a a, .extendedMessage "/launch".toList a,
        .readyReadTcp (notifyClients .launched), .pollJdplayStillActive] = some (s, outputs) := ⟨_, _, rfl⟩
  obtain ⟨s, outputs, hrun⟩ := hrun
  exact ⟨s, outputs, hrun, reported_phase hrun⟩

end GpgNetGameLauncher

end Gpgnet4TA.App
